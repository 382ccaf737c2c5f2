import LegionServer.Source.Packets.ByteBuffer

/-!
# What the writing calls append to the bit stream

A buffer that is written to stands for the bits of its bytes, followed by those of the
unfinished bit pack. Every call appends its bits, after a padding where it flushes.
-/
namespace LegionServer.Source.Packets
open Library List

namespace ByteBuffer

variable {b b' b'' : ByteBuffer}

def stream (b : ByteBuffer) : List Bool :=
  bitsOfBytes b.storage ++ msbBits (8 - b.bitpos) (b.curbitval.toNat >>> b.bitpos)

/-- The bits that are not written yet are zero. -/
structure Writing (b : ByteBuffer) : Prop where
  wpos : b.wpos = b.storage.length
  bitpos_pos : 0 < b.bitpos
  bitpos_le : b.bitpos ≤ 8
  low : b.curbitval.toNat % 2 ^ b.bitpos = 0

structure Extends (b b' : ByteBuffer) : Prop where
  storage : b.storage <+: b'.storage
  stream : b.stream <+: b'.stream

structure Appended (b b' : ByteBuffer) (src : List UInt8) : Prop where
  writing : Writing b'
  bitpos : b'.bitpos = 8
  follows : ∃ base pad, b'.storage = base ++ src ∧ bitsOfBytes base = b.stream ++ pad ∧
    pad.length < 8 ∧ b.storage <+: base

theorem Extends.refl (b : ByteBuffer) : Extends b b := ⟨prefix_refl _, prefix_refl _⟩

theorem Extends.trans (h : Extends b b') (h' : Extends b' b'') : Extends b b'' :=
  ⟨h.storage.trans h'.storage, h.stream.trans h'.stream⟩

theorem stream_of_flushed (h : b.bitpos = 8) : b.stream = bitsOfBytes b.storage := by
  rw [stream, h, Nat.sub_self, msbBits, append_nil]

theorem Appended.extends {src : List UInt8} (h : Appended b b' src) : Extends b b' := by
  obtain ⟨base, pad, hstorage, hbits, _, hprefix⟩ := h.follows
  constructor
  · rw [hstorage]
    exact hprefix.trans (prefix_append base src)
  · rw [stream_of_flushed h.bitpos, hstorage, bitsOfBytes_append, hbits, append_assoc]
    exact prefix_append _ _

theorem store_eq (h : b.wpos = b.storage.length) (src : List UInt8) :
    b.store src = { b with storage := b.storage ++ src, wpos := (b.storage ++ src).length } := by
  have hsize : b.wpos + src.length - b.size = src.length := by
    rw [h, size]
    omega
  unfold store
  dsimp only
  rw [hsize, h, take_left, length_append, drop_eq_nil_of_le, append_nil]
  rw [length_append, length_replicate]

theorem append_aligned (hpos : b.bitpos = 8) (hwpos : b.wpos = b.storage.length)
    (src : List UInt8) :
    Ends (fun _ => True) (b.append src) fun b' =>
      b' = { b with storage := b.storage ++ src, wpos := (b.storage ++ src).length } := by
  unfold append flushBits
  unfold checkAppend
  split
  · exact trivial
  · split
    · exact Ends.ok (store_eq hwpos src)
    · exact trivial

theorem appendFlushed_ends (hwpos : b.wpos = b.storage.length) (src : List UInt8) :
    Ends (fun _ => True) (b.appendFlushed src) fun b' =>
      b' = { b with storage := b.storage ++ src, wpos := (b.storage ++ src).length } := by
  unfold appendFlushed checkAppend
  split
  · exact trivial
  · split
    · exact Ends.ok (store_eq hwpos src)
    · exact trivial

theorem flushBits_ends (h : Writing b) :
    Ends (fun _ => True) b.flushBits fun b' => Appended b b' [] ∧ (b.bitpos = 8 → b' = b) := by
  unfold flushBits
  split
  · rename_i hpos
    refine Ends.ok ⟨⟨h, hpos, b.storage, [], (append_nil _).symm, ?_, by decide,
      prefix_refl _⟩, fun _ => rfl⟩
    rw [append_nil, stream_of_flushed hpos]
  · rename_i hpos
    have hstored := appendFlushed_ends (b := { b with bitpos := 8 }) h.wpos [b.curbitval]
    refine hstored.bind fun after hafter => Ends.ok ⟨?_, fun h8 => absurd h8 hpos⟩
    rw [hafter]
    refine ⟨⟨rfl, Nat.succ_pos 7, Nat.le_refl 8, rfl⟩, rfl, b.storage ++ [b.curbitval],
      msbBits b.bitpos b.curbitval.toNat, (append_nil _).symm, ?_, ?_, prefix_append _ _⟩
    · have hsplit := msbBits_add (8 - b.bitpos) b.bitpos b.curbitval.toNat
      rw [Nat.sub_add_cancel h.bitpos_le] at hsplit
      rw [bitsOfBytes_append, bitsOfBytes_singleton, hsplit, stream, append_assoc]
    · rw [length_msbBits]
      exact Nat.lt_of_le_of_ne h.bitpos_le hpos

theorem append_ends (h : Writing b) (src : List UInt8) :
    Ends (fun _ => True) (b.append src) fun b' => Appended b b' src := by
  unfold append checkAppend
  split
  · exact trivial
  split
  · refine (flushBits_ends h).bind fun flushed hflushed => Ends.ok ?_
    obtain ⟨⟨hwriting, hpos, base, pad, hstorage, hbits, hpad, hprefix⟩, _⟩ := hflushed
    rw [append_nil] at hstorage
    rw [store_eq hwriting.wpos]
    refine ⟨⟨rfl, hwriting.bitpos_pos, hwriting.bitpos_le, hwriting.low⟩, hpos, base, pad, ?_,
      hbits, hpad, hprefix⟩
    rw [hstorage]
  · exact trivial

theorem Appended.append {src more : List UInt8} (h : Appended b b' src)
    (h' : Appended b' b'' more) : Appended b b'' (src ++ more) := by
  obtain ⟨base, pad, hstorage, hbits, hpad, hprefix⟩ := h.follows
  obtain ⟨base', pad', hstorage', hbits', hpad', hprefix'⟩ := h'.follows
  refine ⟨h'.writing, h'.bitpos, base, pad, ?_, hbits, hpad, hprefix⟩
  have hlength : 8 * base'.length = 8 * b'.storage.length + pad'.length := by
    have hall := congrArg List.length hbits'
    rw [stream_of_flushed h.bitpos, length_append, length_bitsOfBytes, length_bitsOfBytes] at hall
    exact hall
  have hbase : b'.storage = base' := hprefix'.eq_of_length (by omega)
  rw [hstorage', ← hbase, hstorage, append_assoc]

/-- Bits put into the free places of the bit pack. -/
def push (b : ByteBuffer) (n value : Nat) : ByteBuffer :=
  let bitpos := b.bitpos - n
  { b with bitpos, curbitval := b.curbitval ||| UInt8.ofNat (value <<< bitpos) }

def settle (b : ByteBuffer) : Except ByteBufferError ByteBuffer :=
  if b.bitpos = 0 then do
    let b ← append { b with bitpos := 8 } [b.curbitval]
    .ok { b with curbitval := 0 }
  else .ok b

theorem push_spec (h : Writing b) {n value : Nat} (hn : n ≤ b.bitpos) (hvalue : value < 2 ^ n) :
    (b.push n value).stream = b.stream ++ msbBits n value ∧
      (b.push n value).curbitval.toNat % 2 ^ (b.push n value).bitpos = 0 := by
  obtain ⟨_, _, hle, hlow⟩ := h
  unfold push stream
  generalize hcur : b.curbitval.toNat >>> b.bitpos = high
  have hcurbitval : b.curbitval.toNat = high <<< b.bitpos := by
    rw [← hcur, Nat.shiftRight_eq_div_pow, Nat.shiftLeft_eq,
      Nat.div_mul_cancel (Nat.dvd_of_mod_eq_zero hlow)]
  generalize hfree : b.bitpos - n = free
  have hpos : b.bitpos = n + free := by omega
  have hfits : value <<< free < 2 ^ 8 := by
    have hpow : 2 ^ n * 2 ^ free ≤ 2 ^ 8 := by
      rw [← Nat.pow_add]
      exact Nat.pow_le_pow_right (by decide) (by omega)
    rw [Nat.shiftLeft_eq]
    exact Nat.lt_of_lt_of_le (Nat.mul_lt_mul_of_pos_right hvalue (Nat.two_pow_pos free)) hpow
  have hsum : (b.curbitval ||| UInt8.ofNat (value <<< free)).toNat =
      (high <<< n ||| value) <<< free := by
    rw [UInt8.toNat_or, UInt8.toNat_ofNat', Nat.mod_eq_of_lt hfits, hcurbitval, hpos,
      Nat.shiftLeft_or_distrib, ← Nat.shiftLeft_add]
  rw [hsum]
  constructor
  · have hwidth : 8 - free = 8 - b.bitpos + n := by omega
    rw [Nat.shiftLeft_shiftRight, hwidth, msbBits_above _ _ _ hvalue, append_assoc]
  · rw [Nat.shiftLeft_eq]
    exact Nat.mul_mod_left _ _

theorem settle_ends (hwpos : b.wpos = b.storage.length) (hle : b.bitpos ≤ 8)
    (hlow : b.curbitval.toNat % 2 ^ b.bitpos = 0) :
    Ends (fun _ => True) b.settle
      fun b' => Writing b' ∧ b.storage <+: b'.storage ∧ b'.stream = b.stream := by
  unfold ByteBuffer.settle
  split
  · rename_i hfull
    have happended := append_aligned (b := { b with bitpos := 8 }) rfl hwpos [b.curbitval]
    refine happended.bind fun after hafter => Ends.ok ?_
    rw [hafter]
    refine ⟨⟨rfl, Nat.succ_pos 7, Nat.le_refl 8, rfl⟩, prefix_append _ _, ?_⟩
    rw [stream_of_flushed rfl, stream, hfull]
    exact (bitsOfBytes_append _ _).trans (congrArg _ (bitsOfBytes_singleton _))
  · rename_i hfree
    exact Ends.ok ⟨⟨hwpos, Nat.pos_of_ne_zero hfree, hle, hlow⟩, prefix_refl _, rfl⟩

theorem pushed_ends (h : Writing b) {n value : Nat} (hn : n ≤ b.bitpos) (hvalue : value < 2 ^ n) :
    Ends (fun _ => True) (b.push n value).settle
      fun b' => Writing b' ∧ Extends b b' ∧ b'.stream = b.stream ++ msbBits n value := by
  obtain ⟨hbits, hlow⟩ := push_spec h hn hvalue
  have hle : b.bitpos - n ≤ 8 := Nat.le_trans (Nat.sub_le _ _) h.bitpos_le
  refine (settle_ends (b := b.push n value) h.wpos hle hlow).mono fun after hafter => ?_
  obtain ⟨hwriting, hstorage, hstream⟩ := hafter
  rw [hbits] at hstream
  refine ⟨hwriting, ⟨hstorage, ?_⟩, hstream⟩
  rw [hstream]
  exact prefix_append _ _

theorem writeBit_eq (b : ByteBuffer) (bit : Bool) :
    b.writeBit bit = (b.push 1 bit.toNat).settle := by
  cases bit with
  | true => rfl
  | false =>
    have hnone : b.curbitval ||| UInt8.ofNat (0 <<< (b.bitpos - 1)) = b.curbitval := by
      rw [Nat.zero_shiftLeft]
      exact UInt8.or_zero
    unfold push
    dsimp only [Bool.toNat_false]
    rw [hnone]
    rfl

theorem writeBit_ends (h : Writing b) (bit : Bool) :
    Ends (fun _ => True) (b.writeBit bit) fun b' =>
      Writing b' ∧ Extends b b' ∧ b'.stream = b.stream ++ [bit] := by
  rw [writeBit_eq]
  have hbit : msbBits 1 bit.toNat = [bit] := by
    cases bit <;> rfl
  rw [← hbit]
  apply pushed_ends h h.bitpos_pos
  cases bit <;> decide

theorem appendByte_eq (b : ByteBuffer) (x : Nat) :
    b.appendInteger .uint8 (BitVec.ofNat 8 x) = b.append [UInt8.ofNat x] := by
  have hbyte : UInt8.ofNat (BitVec.ofNat 8 x).toNat = UInt8.ofNat x := by
    apply UInt8.toNat_inj.mp
    rw [UInt8.toNat_ofNat', UInt8.toNat_ofNat', BitVec.toNat_ofNat, Nat.mod_mod]
  exact congrArg (fun byte => b.append [byte]) hbyte

theorem writeFullBytes_ends (value bits : Nat) (hpos : b.bitpos = 8)
    (hwpos : b.wpos = b.storage.length) :
    Ends (fun _ => True) (writeFullBytes value bits b) fun r => r.2 < 8 ∧
      ∃ bytes, r.1 = { b with storage := b.storage ++ bytes, wpos := (b.storage ++ bytes).length } ∧
        bitsOfBytes bytes ++ msbBits r.2 value = msbBits bits value := by
  induction bits, b using writeFullBytes.induct with
  | case1 bits b ih =>
    rw [writeFullBytes, appendByte_eq]
    refine (append_aligned hpos hwpos _).bind fun after hafter => ?_
    refine (ih after (by rw [hafter]; exact hpos) (by rw [hafter])).mono fun r hr => ?_
    obtain ⟨hless, bytes, hr, hbits⟩ := hr
    refine ⟨hless, UInt8.ofNat (value >>> bits) :: bytes, ?_, ?_⟩
    · rw [hr, hafter]
      simp only [append_assoc, singleton_append]
    · have hbyte : msbBits 8 (UInt8.ofNat (value >>> bits)).toNat = msbBits 8 (value >>> bits) := by
        rw [UInt8.toNat_ofNat', msbBits_mod]
      change _ = msbBits (bits + 8) value
      rw [Nat.add_comm bits 8, msbBits_add, ← hbits, ← hbyte, ← bitsOfBytes_singleton,
        ← append_assoc, ← bitsOfBytes_append, singleton_append]
  | case2 bits b hfew =>
    have hless : bits < 8 := by
      rcases Nat.lt_or_ge bits 8 with hlt | hge
      · exact hlt
      · exact (hfew (bits - 8) (by omega)).elim
    rw [writeFullBytes]
    · refine Ends.ok ⟨hless, [], ?_, rfl⟩
      simp only [append_nil]
      rw [← hwpos]
    · exact hfew

theorem pack_rest (value : Nat) {bits : Nat} (hless : bits < 8) :
    msbBits bits ((UInt8.ofNat ((value % 2 ^ bits) <<< (8 - bits))).toNat >>> (8 - bits)) =
        msbBits bits value ∧
      (UInt8.ofNat ((value % 2 ^ bits) <<< (8 - bits))).toNat % 2 ^ (8 - bits) = 0 := by
  have hfits : (value % 2 ^ bits) <<< (8 - bits) < 2 ^ 8 := by
    have hpow : 2 ^ 8 = 2 ^ bits * 2 ^ (8 - bits) := by
      rw [← Nat.pow_add, Nat.add_sub_cancel' (Nat.le_of_lt hless)]
    rw [Nat.shiftLeft_eq, hpow]
    exact Nat.mul_lt_mul_of_pos_right (Nat.mod_lt _ (Nat.two_pow_pos bits)) (Nat.two_pow_pos _)
  rw [UInt8.toNat_ofNat', Nat.mod_eq_of_lt hfits]
  constructor
  · rw [Nat.shiftLeft_shiftRight, msbBits_mod]
  · rw [Nat.shiftLeft_eq]
    exact Nat.mul_mod_left _ _

theorem mask_eq (value bits : Nat) : value &&& ((1 <<< bits) - 1) = value % 2 ^ bits := by
  rw [Nat.one_shiftLeft, Nat.and_two_pow_sub_one_eq_mod]

theorem writeBits_ends (h : Writing b) (value : UInt64) (bits : Nat) :
    Ends (fun _ => True) (b.writeBits value bits) fun b' =>
      Writing b' ∧ Extends b b' ∧ b'.stream = b.stream ++ msbBits bits value.toNat := by
  have hlow : value.toNat % 2 ^ bits < 2 ^ bits := Nat.mod_lt _ (Nat.two_pow_pos bits)
  rw [← msbBits_mod]
  unfold writeBits
  simp only [mask_eq]
  generalize value.toNat % 2 ^ bits = value at hlow
  split
  · rename_i hmore
    -- the bits that fill the pack, and those below them
    have hwidth : bits = b.bitpos + (bits - b.bitpos) := by omega
    have hhigh : value >>> (bits - b.bitpos) < 2 ^ b.bitpos := by
      rw [Nat.shiftRight_eq_div_pow]
      apply Nat.div_lt_of_lt_mul
      rw [← Nat.pow_add, Nat.add_comm, ← hwidth]
      exact hlow
    obtain ⟨hpushed, _⟩ := push_spec h (Nat.le_refl b.bitpos) hhigh
    have hfilled : b.curbitval ||| UInt8.ofNat (value >>> (bits - b.bitpos)) =
        (b.push b.bitpos (value >>> (bits - b.bitpos))).curbitval := by
      rw [push, Nat.sub_self, Nat.shiftLeft_zero]
    generalize b.curbitval ||| UInt8.ofNat (value >>> (bits - b.bitpos)) = filled at hfilled
    have hbits : bitsOfBytes b.storage ++ msbBits 8 filled.toNat =
        b.stream ++ msbBits b.bitpos (value >>> (bits - b.bitpos)) := by
      rw [← hpushed, stream, hfilled]
      simp only [push, Nat.sub_self, Nat.sub_zero, Nat.shiftRight_zero]
    have happended := append_aligned (b := { b with curbitval := filled, bitpos := 8 }) rfl h.wpos
      [filled]
    refine happended.bind fun after hafter => ?_
    have hfull := writeFullBytes_ends (b := after) value (bits - b.bitpos) (by rw [hafter])
      (by rw [hafter])
    refine hfull.bind fun r hr => Ends.ok ?_
    obtain ⟨hless, bytes, hr, hrest⟩ := hr
    obtain ⟨hpack, hzero⟩ := pack_rest value hless
    have hstorage : r.1.storage = b.storage ++ [filled] ++ bytes := by
      rw [hr, hafter]
    have hstream : bitsOfBytes r.1.storage ++ msbBits r.2 value = b.stream ++ msbBits bits value := by
      rw [hstorage, bitsOfBytes_append, bitsOfBytes_append, bitsOfBytes_singleton, hbits,
        append_assoc, append_assoc, hrest, ← msbBits_add, ← hwidth]
    have hafterBits : bitsOfBytes r.1.storage ++ msbBits (8 - (8 - r.2))
        ((UInt8.ofNat ((value % 2 ^ r.2) <<< (8 - r.2))).toNat >>> (8 - r.2)) =
          b.stream ++ msbBits bits value := by
      rw [Nat.sub_sub_self (Nat.le_of_lt hless), hpack, hstream]
    refine ⟨⟨?_, Nat.sub_pos_of_lt hless, Nat.sub_le _ _, hzero⟩, ⟨?_, ?_⟩, hafterBits⟩
    · rw [hr]
    · rw [hstorage, append_assoc]
      exact prefix_append _ _
    · exact ⟨_, hafterBits.symm⟩
  · rename_i hfits
    exact pushed_ends h (Nat.le_of_not_lt hfits) hlow

theorem appendInteger_ends (h : Writing b) (type : IntegerType) (value : type.Value) :
    Ends (fun _ => True) (b.appendInteger type value) fun b' =>
      Appended b b' (bytesOf type.sizeof value.toNat) := append_ends h _

theorem writeCString_ends (h : Writing b) (value : List UInt8) :
    Ends (fun _ => True) (b.writeCString value) fun b' => Appended b b' (value ++ [0]) := by
  unfold writeCString
  split
  · refine (append_ends h value).bind fun after hafter => ?_
    refine (appendInteger_ends hafter.writing .uint8 0).mono fun ended hended => ?_
    exact hafter.append hended
  · rename_i hempty
    rw [eq_nil_of_length_eq_zero (not_not.mp hempty)]
    exact appendInteger_ends h .uint8 0

/-- An empty string is not written and flushes nothing. -/
theorem writeString_ends (h : Writing b) (str : List UInt8) :
    Ends (fun _ => True) (b.writeString str) fun b' =>
      (str ≠ [] → Appended b b' str) ∧ (str = [] → b' = b) := by
  unfold writeString
  split
  · rename_i hne
    refine (append_ends h str).mono fun after hafter => ⟨fun _ => hafter, fun hnil => ?_⟩
    rw [hnil] at hne
    exact absurd rfl hne
  · rename_i hempty
    exact Ends.ok ⟨fun hne => absurd (eq_nil_of_length_eq_zero (not_not.mp hempty)) hne,
      fun _ => rfl⟩

end ByteBuffer

theorem writePacket_append (fields more : List PacketField) (b : ByteBuffer) :
    writePacket (fields ++ more) b = writePacket fields b >>= writePacket more := by
  induction fields generalizing b with
  | nil => rfl
  | cons field fields ih =>
    rw [cons_append, writePacket, writePacket]
    cases field.write b with
    | error e => rfl
    | ok c => exact ih c

end LegionServer.Source.Packets
