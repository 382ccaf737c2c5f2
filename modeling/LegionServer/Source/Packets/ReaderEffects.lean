import LegionServer.Source.Packets.WriterEffects

/-!
# What the reading calls take from the bit stream

A buffer that is read stands for the bits of the bit pack that are left, followed by
those of its unread bytes. Every call takes its bits, after a skip where it resets the
bit cursor.
-/
namespace LegionServer.Source.Packets
open Library Source.Common List Bool

namespace ByteBuffer

variable {b b' : ByteBuffer}

def unread (b : ByteBuffer) : List Bool :=
  msbBits (8 - b.bitpos) b.curbitval.toNat ++ bitsOfBytes (b.storage.drop b.rpos)

structure Reading (b : ByteBuffer) : Prop where
  rpos : b.rpos ≤ b.storage.length
  bitpos_pos : 0 < b.bitpos
  bitpos_le : b.bitpos ≤ 8

structure Took (b b' : ByteBuffer) (rest : List Bool) : Prop where
  reading : Reading b'
  storage : b'.storage = b.storage
  unread : b'.unread = rest

theorem unread_of_reset (h : b.bitpos = 8) : b.unread = bitsOfBytes (b.storage.drop b.rpos) := by
  rw [unread, h, Nat.sub_self, msbBits, nil_append]

theorem read_eq {src more : List UInt8} (h : b.storage.drop b.rpos = src ++ more) (hsrc : src ≠ []) :
    b.read src.length = .ok (src, { b with
      bitpos := 8, curbitval := 0, rpos := b.rpos + src.length }) := by
  have hlength := congrArg length h
  rw [length_drop, length_append] at hlength
  have hpos := List.length_pos_iff.mpr hsrc
  unfold read size
  rw [if_neg (by omega), h, take_left]
  rfl

theorem drop_add {src more : List UInt8} (h : b.storage.drop b.rpos = src ++ more) :
    b.storage.drop (b.rpos + src.length) = more := by
  rw [← drop_drop, h, drop_left]

theorem readInteger_eq {type : IntegerType} {value : type.Value} {more : List UInt8}
    (h : b.storage.drop b.rpos = bytesOf type.sizeof value.toNat ++ more) :
    b.readInteger type = .ok (value, { b with
      bitpos := 8, curbitval := 0, rpos := b.rpos + type.sizeof }) := by
  have hne : bytesOf type.sizeof value.toNat ≠ [] := by
    cases type <;> exact cons_ne_nil _ _
  have hread := read_eq h hne
  rw [length_bytesOf] at hread
  have hvalue : BitVec.ofNat (8 * type.sizeof) (valueOf (bytesOf type.sizeof value.toNat)) =
      value := by
    have hpow : 256 ^ type.sizeof = 2 ^ (8 * type.sizeof) := by
      rw [Nat.pow_mul]
    rw [valueOf_bytesOf, hpow, Nat.mod_eq_of_lt value.isLt, BitVec.ofNat_toNat, BitVec.setWidth_eq]
  unfold readInteger
  rw [hread]
  exact congrArg (fun value => Except.ok (value, _)) hvalue

theorem readCurbitval_eq {byte : UInt8} {more : List UInt8}
    (h : b.storage.drop b.rpos = byte :: more) :
    b.readCurbitval = .ok { b with bitpos := 8, curbitval := byte, rpos := b.rpos + 1 } := by
  have hsplit : b.storage.drop b.rpos = [byte] ++ more := h
  have hread : b.read 1 = .ok ([byte], { b with
      bitpos := 8, curbitval := 0, rpos := b.rpos + 1 }) := read_eq hsplit (cons_ne_nil _ _)
  unfold readCurbitval
  rw [hread]
  rfl

section Bits

theorem exists_byte (hlt : b.rpos < b.storage.length) :
    ∃ byte, b.storage.drop b.rpos = byte :: b.storage.drop (b.rpos + 1) :=
  ⟨_, drop_eq_getElem_cons hlt⟩

theorem rpos_lt (hbits : 0 < (bitsOfBytes (b.storage.drop b.rpos)).length) :
    b.rpos < b.storage.length := by
  rw [length_bitsOfBytes, length_drop] at hbits
  omega

variable {bit : Bool} {rest : List Bool}

theorem nextBit_eq (hpos : b.bitpos < 8) (hunread : b.unread = bit :: rest) :
    (((b.curbitval.toNat >>> (8 - (b.bitpos + 1))) &&& 1 != 0) = bit) ∧
      unread { b with bitpos := b.bitpos + 1 } = rest := by
  obtain ⟨k, hk⟩ : ∃ k, 8 - b.bitpos = k + 1 := ⟨7 - b.bitpos, by omega⟩
  have hnext : 8 - (b.bitpos + 1) = k := by omega
  rw [unread, hk, msbBits, cons_append, cons.injEq] at hunread
  rw [hnext]
  constructor
  · rw [← hunread.1, Nat.testBit, Nat.and_comm]
  · rw [← hunread.2]
    unfold unread
    rw [hnext]

theorem nextBit_spec (hrpos : b.rpos ≤ b.storage.length) (hpos : b.bitpos < 8)
    (hunread : b.unread = bit :: rest) :
    (((b.curbitval.toNat >>> (8 - (b.bitpos + 1))) &&& 1 != 0) = bit) ∧
      Took b { b with bitpos := b.bitpos + 1 } rest :=
  (nextBit_eq hpos hunread).imp_right fun hrest => ⟨⟨hrpos, Nat.succ_pos _, hpos⟩, rfl, hrest⟩

theorem readBit_spec (h : Reading b) (hunread : b.unread = bit :: rest) :
    ∃ b', b.readBit = .ok (bit, b') ∧ Took b b' rest := by
  rcases Nat.eq_or_lt_of_le h.bitpos_le with hpos | hpos
  · have hbits : 0 < (bitsOfBytes (b.storage.drop b.rpos)).length := by
      rw [← unread_of_reset hpos, hunread]
      exact Nat.succ_pos _
    have hrpos := rpos_lt hbits
    obtain ⟨byte, hdrop⟩ := exists_byte hrpos
    have hloaded : unread { b with bitpos := 0, curbitval := byte, rpos := b.rpos + 1 } =
        bit :: rest := by
      rw [← hunread, unread_of_reset hpos, hdrop, ← singleton_append, bitsOfBytes_append,
        bitsOfBytes_singleton]
      rfl
    obtain ⟨hbit, htook⟩ := nextBit_spec (b := { b with
      bitpos := 0, curbitval := byte, rpos := b.rpos + 1 }) hrpos (Nat.succ_pos 7) hloaded
    refine ⟨_, ?_, htook.reading, htook.storage, htook.unread⟩
    unfold readBit
    rw [if_pos (Nat.le_of_eq hpos.symm), readCurbitval_eq hdrop]
    exact congrArg (fun bit => Except.ok (bit, _)) hbit
  · obtain ⟨hbit, htook⟩ := nextBit_spec h.rpos hpos hunread
    refine ⟨_, ?_, htook⟩
    unfold readBit
    rw [if_neg (Nat.not_le_of_lt hpos)]
    exact congrArg (fun bit => Except.ok (bit, _)) hbit

theorem readByte_eq {byte : UInt8} {more : List UInt8} (h : b.storage.drop b.rpos = byte :: more) :
    b.readInteger .uint8 = .ok (BitVec.ofNat 8 byte.toNat, { b with
      bitpos := 8, curbitval := 0, rpos := b.rpos + 1 }) := by
  have hbyte : bytesOf 1 (BitVec.ofNat 8 byte.toNat).toNat = [byte] := by
    rw [BitVec.toNat_ofNat, Nat.mod_eq_of_lt byte.toNat_lt, bytesOf, bytesOf, UInt8.ofNat_toNat]
  have hsplit : b.storage.drop b.rpos = bytesOf IntegerType.uint8.sizeof
      (BitVec.ofNat 8 byte.toNat).toNat ++ more := by
    rw [IntegerType.sizeof, hbyte]
    exact h
  exact readInteger_eq hsplit

structure FullBytes (b : ByteBuffer) (m high bits : Nat) (b' : ByteBuffer) (high' bits' : Nat) :
    Prop where
  less : bits' < 8
  le : bits' ≤ bits
  bound : high' < 2 ^ (m + (bits - bits'))
  storage : b'.storage = b.storage
  rpos : b'.rpos ≤ b'.storage.length
  left : bits' ≤ 8 * (b'.storage.length - b'.rpos)
  bitpos : bits' = bits ∧ b' = b ∨ b'.bitpos = 8
  taken : ∃ taken, msbBits (m + (bits - bits')) high' = msbBits m high ++ taken ∧
    bitsOfBytes (b.storage.drop b.rpos) = taken ++ bitsOfBytes (b'.storage.drop b'.rpos)

theorem readFullBytes_spec (bits m high : Nat) (hhigh : high < 2 ^ m)
    (hrpos : b.rpos ≤ b.storage.length) (hleft : bits ≤ 8 * (b.storage.length - b.rpos)) :
    ∃ high' bits' b', readFullBytes bits (high <<< bits) b = .ok ((high' <<< bits', bits'), b') ∧
      FullBytes b m high bits b' high' bits' := by
  induction bits using Nat.strongRecOn generalizing b m high with
  | ind bits ih =>
    rcases Nat.lt_or_ge bits 8 with hless | hge
    · refine ⟨high, bits, b, ?_, hless, Nat.le_refl _, ?_, rfl, hrpos, hleft,
        .inl ⟨rfl, rfl⟩, [], ?_, rfl⟩
      · rw [readFullBytes]
        intro k hk
        omega
      · rw [Nat.sub_self]
        exact hhigh
      · rw [Nat.sub_self, Nat.add_zero, append_nil]
    · obtain ⟨k, rfl⟩ : ∃ k, bits = k + 8 := ⟨bits - 8, (Nat.sub_add_cancel hge).symm⟩
      obtain ⟨byte, hdrop⟩ := exists_byte (b := b) (by omega)
      obtain ⟨high', bits', b', hread, hloop⟩ := ih k (by omega) (m + 8) (high <<< 8 ||| byte.toNat)
        (above_lt hhigh byte.toNat_lt)
        (b := { b with bitpos := 8, curbitval := 0, rpos := b.rpos + 1 })
        (by dsimp only; omega) (by dsimp only; omega)
      obtain ⟨hless, hle, hbound, hstorage, hrpos', hleft', hbitpos, taken, hbits, hrest⟩ := hloop
      have hwidth : m + 8 + (k - bits') = m + (k + 8 - bits') := by omega
      rw [hwidth] at hbound hbits
      refine ⟨high', bits', b', ?_, hless, by omega, hbound, hstorage, hrpos', hleft', .inr ?_,
        msbBits 8 byte.toNat ++ taken, ?_, ?_⟩
      · rw [readFullBytes, readByte_eq hdrop]
        have hvalue : high <<< (k + 8) ||| (BitVec.ofNat 8 byte.toNat).toNat <<< k =
            (high <<< 8 ||| byte.toNat) <<< k := by
          rw [BitVec.toNat_ofNat, Nat.mod_eq_of_lt byte.toNat_lt, Nat.shiftLeft_or_distrib,
            ← Nat.shiftLeft_add, Nat.add_comm 8 k]
        exact (congrArg (fun value => readFullBytes k value _) hvalue).trans hread
      · rcases hbitpos with ⟨_, hsame⟩ | hpos
        · rw [hsame]
        · exact hpos
      · rw [hbits, msbBits_above _ _ _ byte.toNat_lt, append_assoc]
      · rw [hdrop, ← singleton_append, bitsOfBytes_append, bitsOfBytes_singleton,
          append_assoc, ← hrest]

variable {n v : Nat}

theorem value_of_bits {total : Nat} {tail : List Bool}
    (hbits : msbBits n total ++ tail = msbBits n v ++ rest) (hlt : total < 2 ^ n) :
    total = v % 2 ^ n ∧ tail = rest := by
  obtain ⟨hvalue, htail⟩ := append_inj hbits (by rw [length_msbBits, length_msbBits])
  exact ⟨eq_of_msbBits hlt hvalue, htail⟩

theorem packedBits_eq (hfits : n ≤ 8 - b.bitpos) (hunread : b.unread = msbBits n v ++ rest) :
    ((b.curbitval.toNat >>> (8 - b.bitpos - n)) &&& ((1 <<< n) - 1)) = v % 2 ^ n ∧
      unread { b with bitpos := b.bitpos + n } = rest := by
  have hwidth : 8 - b.bitpos = n + (8 - b.bitpos - n) := by omega
  have hleft : 8 - (b.bitpos + n) = 8 - b.bitpos - n := Nat.sub_add_eq ..
  have hbits : msbBits n (b.curbitval.toNat >>> (8 - b.bitpos - n) % 2 ^ n) ++
      (msbBits (8 - b.bitpos - n) b.curbitval.toNat ++ bitsOfBytes (b.storage.drop b.rpos)) =
        msbBits n v ++ rest := by
    rw [← hunread, unread, msbBits_mod, ← append_assoc, ← msbBits_add, ← hwidth]
  obtain ⟨hvalue, hrest⟩ := value_of_bits hbits (Nat.mod_lt _ (Nat.two_pow_pos n))
  rw [mask_eq]
  refine ⟨hvalue, ?_⟩
  rw [← hrest, unread]
  rw [hleft]

theorem readBits_packed (h : Reading b) (hfits : n ≤ 8 - b.bitpos)
    (hunread : b.unread = msbBits n v ++ rest) :
    ((b.curbitval.toNat >>> (8 - b.bitpos - n)) &&& ((1 <<< n) - 1)) = v % 2 ^ n ∧
      Took b { b with bitpos := b.bitpos + n } rest := by
  have hle := h.bitpos_le
  refine (packedBits_eq hfits hunread).imp_right fun hrest =>
    ⟨⟨h.rpos, Nat.add_pos_left h.bitpos_pos n, by dsimp only; omega⟩, rfl, hrest⟩

theorem readBits_spec (h : Reading b) (hunread : b.unread = msbBits n v ++ rest) :
    ∃ b', b.readBits n = .ok (UInt32.ofNat (v % 2 ^ n), b') ∧ Took b b' rest := by
  unfold readBits
  split
  · rename_i hmore
    simp only [mask_eq]
    generalize hpack : 8 - b.bitpos = k at hmore
    have hlength := congrArg length hunread
    rw [unread, hpack, length_append, length_append, length_msbBits, length_msbBits,
      length_bitsOfBytes, length_drop] at hlength
    obtain ⟨high, bits, after, hread, hloop⟩ := readFullBytes_spec (b := b) (n - k) k
      (b.curbitval.toNat % 2 ^ k) (Nat.mod_lt _ (Nat.two_pow_pos k)) h.rpos (by omega)
    obtain ⟨hless, hle, hbound, hstorage, hrpos, hleft, hbitpos, taken, htaken, hrest⟩ := hloop
    have hwidth : k + (n - k - bits) = n - bits := by omega
    rw [hwidth] at hbound htaken
    have hbits : msbBits (n - bits) high ++ bitsOfBytes (after.storage.drop after.rpos) =
        msbBits n v ++ rest := by
      rw [htaken, msbBits_mod, append_assoc, ← hrest, ← hunread, unread, hpack]
    rw [hread]
    by_cases hzero : bits = 0
    · have hpos : after.bitpos = 8 := by
        rcases hbitpos with ⟨hsame, _⟩ | hpos
        · omega
        · exact hpos
      rw [hzero, Nat.sub_zero] at hbits hbound
      obtain ⟨hvalue, htail⟩ := value_of_bits hbits hbound
      refine ⟨after, ?_, ⟨hrpos, by omega, Nat.le_of_eq hpos⟩, hstorage, ?_⟩
      · rw [hzero, Nat.shiftLeft_zero, hvalue]
        rfl
      · rw [unread_of_reset hpos, htail]
    · have hroom : after.rpos < after.storage.length := by omega
      obtain ⟨byte, hdrop⟩ := exists_byte hroom
      have hlow : byte.toNat >>> (8 - bits) % 2 ^ bits < 2 ^ bits :=
        Nat.mod_lt _ (Nat.two_pow_pos bits)
      have htotal := above_lt hbound hlow
      have hbyte : msbBits 8 byte.toNat = msbBits bits (byte.toNat >>> (8 - bits)) ++
          msbBits (8 - bits) byte.toNat := by
        rw [← msbBits_add, Nat.add_sub_cancel' (Nat.le_of_lt hless)]
      have hall : msbBits (n - bits + bits) (high <<< bits ||| byte.toNat >>> (8 - bits) % 2 ^ bits) ++
          (msbBits (8 - bits) byte.toNat ++ bitsOfBytes (after.storage.drop (after.rpos + 1))) =
            msbBits n v ++ rest := by
        rw [← hbits, hdrop, ← singleton_append, bitsOfBytes_append, bitsOfBytes_singleton, hbyte,
          msbBits_above _ _ _ hlow, msbBits_mod, append_assoc, append_assoc]
      rw [Nat.sub_add_cancel (by omega)] at htotal hall
      obtain ⟨hvalue, htail⟩ := value_of_bits hall htotal
      refine ⟨{ after with bitpos := bits, curbitval := byte, rpos := after.rpos + 1 }, ?_,
        ⟨hroom, Nat.pos_of_ne_zero hzero, Nat.le_of_lt hless⟩, hstorage, ?_⟩
      · change (if bits ≠ 0 then _ else _) = _
        rw [if_pos hzero, readCurbitval_eq hdrop]
        exact congrArg (fun value => Except.ok (UInt32.ofNat value, _)) hvalue
      · rw [← htail, unread]
  · rename_i hfits
    obtain ⟨hvalue, htook⟩ := readBits_packed h (Nat.le_of_not_lt hfits) hunread
    exact ⟨_, congrArg (fun value => Except.ok (UInt32.ofNat value, _)) hvalue, htook⟩

end Bits

section Strings

variable {value more : List UInt8} {requireValidUtf8 : Bool}

theorem readCString_eq (h : b.storage.drop b.rpos = value ++ [0] ++ more) (hnul : 0 ∉ value)
    (hvalid : requireValidUtf8 = true → Utf8.isValid value = true) :
    b.readCString requireValidUtf8 = .ok (value, { b with
      bitpos := 8, curbitval := 0, rpos := b.rpos + (value.length + 1) }) := by
  have hlength := congrArg length h
  simp only [length_drop, length_append, length_singleton] at hlength
  have htake : (value ++ [0] ++ more).takeWhile (· ≠ 0) = value := by
    rw [append_assoc, singleton_append, takeWhile_append_of_pos, takeWhile_cons]
    · simp
    · intro byte hbyte
      simp only [ne_eq, decide_not, not_eq_true', decide_eq_false_iff_not]
      rintro rfl
      exact hnul hbyte
  have hutf8 : ¬(requireValidUtf8 && !Utf8.isValid value) = true := by
    cases requireValidUtf8 with
    | false => exact false_ne_true
    | true =>
      rw [hvalid rfl]
      exact false_ne_true
  unfold readCString size
  rw [if_neg (by omega)]
  simp only [resetBitPos, h, htake]
  rw [if_neg (by simp only [length_append, length_singleton]; omega), if_neg hutf8]

theorem readString_eq (h : b.storage.drop b.rpos = value ++ more) (hvalue : value ≠ [])
    (hvalid : requireValidUtf8 = true → Utf8.isValid value = true) :
    b.readString value.length requireValidUtf8 = .ok (value, { b with
      bitpos := 8, curbitval := 0, rpos := b.rpos + value.length }) := by
  have hlength := congrArg length h
  rw [length_drop, length_append] at hlength
  have hpos := List.length_pos_iff.mpr hvalue
  have hutf8 : ¬(requireValidUtf8 && !Utf8.isValid value) = true := by
    cases requireValidUtf8 with
    | false => exact false_ne_true
    | true =>
      rw [hvalid rfl]
      exact false_ne_true
  unfold readString size
  rw [if_neg (by omega), if_neg (by omega)]
  simp only [resetBitPos, h, take_left]
  rw [if_neg hutf8]

theorem readString_empty (h : b.rpos ≤ b.storage.length) :
    b.readString 0 requireValidUtf8 = .ok ([], b.resetBitPos) := by
  unfold readString size
  rw [if_neg (by omega), if_pos rfl]

end Strings

end ByteBuffer

end LegionServer.Source.Packets
