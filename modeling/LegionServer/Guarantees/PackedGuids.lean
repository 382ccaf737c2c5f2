import LegionServer.Source.Packets.PackedGuid

/-!
# Packed guids are read as they were written

Both loops stay inside their arrays: the writer because a slot is used up only by a byte that is
not zero, the reader because it goes on only for a mask with its last bit, so that a byte of the
span is left at every index.
-/
namespace LegionServer.Guarantees.PackedGuids
open Library Source.Objects Source.Packets UInt8 Option

section Writer

variable {bytes : List UInt8} {byte : UInt8} {s : PackState}

structure Packed (bytes : List UInt8) (s : PackState) : Prop where
  index : s.outputByteIndex = 2 + (bytes.filter (· != 0)).length
  kept : (s.bytes.toList.drop 2).take (bytes.filter (· != 0)).length = bytes.filter (· != 0)
  mask : Presence s.mask bytes

theorem presence_append {mask : Nat} (h : Presence mask bytes) (byte : UInt8) :
    Presence (mask ||| (if byte != 0 then 1 else 0) <<< bytes.length) (bytes ++ [byte]) := by
  intro i
  rw [Nat.testBit_or, h i, Nat.testBit_shiftLeft, List.getElem?_append]
  by_cases hlt : i < bytes.length
  · rw [if_pos hlt, decide_eq_false (by omega), Bool.false_and, Bool.or_false]
  · rw [if_neg hlt, decide_eq_true (by omega), Bool.true_and, List.getElem?_eq_none (by omega)]
    cases hi : i - bytes.length with
    | zero => by_cases hbyte : byte = 0 <;> simp [hbyte]
    | succ d => by_cases hbyte : byte = 0 <;> simp [hbyte, Nat.testBit_succ]

theorem packByte_ok (h : Packed bytes s) (hroom : bytes.length < 16) (byte : UInt8) :
    ∃ s', packByte bytes.length byte s = .ok s' ∧ Packed (bytes ++ [byte]) s' := by
  have hlength := List.length_filter_le (· != 0) bytes
  have hslot : s.outputByteIndex < 18 := by
    rw [h.index]
    omega
  have hdrop : (s.bytes.toList.set s.outputByteIndex byte).drop 2 =
      (s.bytes.toList.drop 2).set (bytes.filter (· != 0)).length byte := by
    have hindex := h.index
    rw [List.drop_set, if_neg (by omega), hindex, Nat.add_sub_cancel_left]
  rw [packByte, dif_pos hslot]
  refine ⟨_, rfl, ?_, ?_, presence_append h.mask byte⟩
  · dsimp only
    rw [List.filter_append, List.length_append, ← Nat.add_assoc, ← h.index]
    by_cases hbyte : byte = 0 <;> simp [hbyte]
  · rw [Vector.toList_set, hdrop, List.filter_append]
    by_cases hbyte : byte = 0
    · have hnone : [byte].filter (· != 0) = [] := by simp [hbyte]
      rw [hnone, List.append_nil, List.take_set_of_le (Nat.le_refl _), h.kept]
    have hone : [byte].filter (· != 0) = [byte] := by simp [hbyte]
    have hfree : (bytes.filter (· != 0)).length < (s.bytes.toList.drop 2).length := by
      rw [List.length_drop, Vector.length_toList]
      omega
    rw [hone, List.length_append, List.length_singleton, List.take_add_one,
      List.take_set_of_le (Nat.le_refl _), h.kept, List.getElem?_set_self hfree,
      toList_some]

theorem packBytes_ok (h : Packed bytes s) {more : List UInt8}
    (hroom : (bytes ++ more).length ≤ 16) :
    ∃ s', packBytes bytes.length more s = .ok s' ∧ Packed (bytes ++ more) s' := by
  induction more generalizing bytes s with
  | nil => exact ⟨s, rfl, by rwa [List.append_nil]⟩
  | cons byte more ih =>
    rw [List.length_append, List.length_cons] at hroom
    obtain ⟨s', hstep, hpacked⟩ := packByte_ok h (by omega) byte
    obtain ⟨s'', hrun, hrest⟩ := ih hpacked (by
      rw [List.length_append, List.length_append, List.length_singleton]
      omega)
    rw [List.length_append, List.length_singleton] at hrun
    rw [List.append_assoc, List.singleton_append] at hrest
    refine ⟨s'', ?_, hrest⟩
    rw [packBytes, hstep]
    exact hrun

/-- What is written for a guid: its mask and its bytes that are not zero. -/
theorem packGuid_ok (garbage : Vector UInt8 18) (guid : ObjectGuid) :
    ∃ mask < 2 ^ 16, Presence mask (guidBytes guid).toList ∧ packGuid garbage guid =
      .ok (bytesOf 2 mask ++ (guidBytes guid).toList.filter (· != 0)) := by
  have hstart : Packed [] { bytes := garbage } :=
    ⟨rfl, by simp, fun i => Nat.zero_testBit i⟩
  have hlength : ([] ++ (guidBytes guid).toList).length ≤ 16 := by simp
  obtain ⟨s, hrun, hindex, hkept, hmask⟩ := packBytes_ok hstart hlength
  rw [List.nil_append] at hindex hkept hmask
  have hfits : (guidBytes guid).toList.length = 16 := by simp
  have hcount := List.length_filter_le (· != 0) (guidBytes guid).toList
  have hbound : s.mask < 2 ^ 16 := by
    apply Nat.lt_pow_two_of_testBit
    intro i hi
    rw [hmask i, List.getElem?_eq_none (by omega)]
    rfl
  refine ⟨s.mask, hbound, hmask, ?_⟩
  rw [packGuid, show packBytes 0 (guidBytes guid).toList { bytes := garbage } = .ok s from hrun]
  dsimp only [bind, Except.bind]
  rw [if_pos (by omega), hindex, Vector.toList_set, Vector.toList_set]
  -- the two slots of the mask stand before the kept bytes
  obtain ⟨low, high, kept, hlist⟩ : ∃ low high kept, s.bytes.toList = low :: high :: kept := by
    match hlist : s.bytes.toList with
    | [] => exact absurd (congrArg List.length hlist) (by simp)
    | [low] => exact absurd (congrArg List.length hlist) (by simp)
    | low :: high :: kept => exact ⟨low, high, kept, rfl⟩
  rw [hlist, List.drop_succ_cons, List.drop_succ_cons, List.drop_zero] at hkept
  rw [hlist, Nat.add_comm 2, List.set_cons_zero, List.set_cons_succ, List.set_cons_zero,
    List.take_succ_cons, List.take_succ_cons, hkept]
  have hlow : UInt8.ofNat (s.mask &&& 0xFF) = UInt8.ofNat s.mask := by
    apply UInt8.toNat_inj.mp
    rw [toNat_ofNat', toNat_ofNat', Nat.and_two_pow_sub_one_eq_mod _ 8, Nat.mod_mod]
  have hhigh : UInt8.ofNat ((s.mask >>> 8) &&& 0xFF) = UInt8.ofNat (s.mask / 256) := by
    apply UInt8.toNat_inj.mp
    rw [toNat_ofNat', toNat_ofNat', Nat.and_two_pow_sub_one_eq_mod _ 8, Nat.mod_mod,
      Nat.shiftRight_eq_div_pow]
  rw [hlow, hhigh]
  rfl

end Writer

section Reader

variable {mask n : Nat} {bytes : List UInt8} {s : UnpackState}

/-- The byte of a guid at an index, for a mask and the bytes behind it. -/
def byteAt (mask : Nat) (bytes : List UInt8) (i : Nat) : UInt8 :=
  if mask.testBit i then (bytes[bitsBelow mask i]?).getD 0 else 0

structure Unpacked (mask : Nat) (bytes : List UInt8) (n : Nat) (s : UnpackState) : Prop where
  index : s.inputByteIndex = bitsBelow mask n
  read : ∀ i (h : i < 16), i < n → s.guidBytes[i] = byteAt mask bytes i

theorem hasByte_eq (mask i : Nat) : (mask >>> i) &&& 1 = (mask.testBit i).toNat := by
  rw [Nat.and_one_is_mod, Nat.testBit, Nat.and_comm, Nat.and_one_is_mod]
  rcases Nat.mod_two_eq_zero_or_one (mask >>> i) with h | h <;> rw [h] <;> rfl

theorem unpackByte_ok (h : Unpacked mask bytes n s) (hlast : mask.testBit 15 = true)
    (hbytes : bytes.length = popcount mask) (hn : n < 16) :
    ∃ s', unpackByte mask bytes s n = .ok s' ∧ Unpacked mask bytes (n + 1) s' := by
  have hlt : s.inputByteIndex < bytes.length := by
    rw [h.index, hbytes]
    exact bitsBelow_lt hlast hn
  obtain ⟨byte, hbyte⟩ : ∃ byte, bytes[s.inputByteIndex]? = some byte :=
    ⟨_, List.getElem?_eq_getElem hlt⟩
  have hvalue : byte &&& -(UInt8.ofNat ((mask >>> n) &&& 1)) = byteAt mask bytes n := by
    rw [hasByte_eq, byteAt, ← h.index, hbyte]
    cases mask.testBit n with
    | false => exact UInt8.and_zero
    | true => exact UInt8.and_neg_one
  unfold unpackByte
  rw [hbyte]
  dsimp only
  rw [dif_pos hn]
  refine ⟨_, rfl, ?_, ?_⟩
  · dsimp only
    rw [h.index, hasByte_eq, bitsBelow_succ]
  · intro i hi hbelow
    rw [Vector.getElem_set, hvalue]
    split
    · rename_i heq
      rw [heq]
    · exact h.read i hi (by omega)

theorem unpackBytes_ok (hlast : mask.testBit 15 = true) (hbytes : bytes.length = popcount mask)
    (guid : Vector UInt8 16) (hn : n ≤ 16) :
    ∃ s, (List.range n).foldlM (unpackByte mask bytes) { guidBytes := guid } = .ok s ∧
      Unpacked mask bytes n s := by
  induction n with
  | zero => exact ⟨_, rfl, rfl, fun i _ hi => absurd hi (Nat.not_lt_zero i)⟩
  | succ n ih =>
    obtain ⟨s, hrun, hread⟩ := ih (by omega)
    obtain ⟨s', hstep, hread'⟩ := unpackByte_ok hread hlast hbytes (by omega)
    refine ⟨s', ?_, hread'⟩
    rw [List.range_succ, List.foldlM_append, hrun]
    exact (bind_pure _).trans hstep

def unpacked (mask : Nat) (bytes : List UInt8) : ObjectGuid :=
  if mask.testBit 15 then ofGuidBytes (Vector.ofFn fun i => byteAt mask bytes i)
  else ObjectGuid.empty

variable {value : IntegerType.uint16.Value} {b : ByteBuffer} {rest : List UInt8}

theorem readBytes_ok (hsent : b.storage.drop b.rpos = bytesOf 2 value.toNat ++ (bytes ++ rest)) :
    b.readInteger .uint16 = .ok (value, { b with
        bitpos := 8, curbitval := 0, rpos := b.rpos + 2 }) ∧
      ByteBuffer.readBytes { b with bitpos := 8, curbitval := 0, rpos := b.rpos + 2 }
          bytes.length = .ok (bytes, { b with
        bitpos := 8, curbitval := 0, rpos := b.rpos + 2 + bytes.length }) := by
  refine ⟨ByteBuffer.readInteger_eq hsent, ?_⟩
  have hrest : b.storage.drop (b.rpos + 2) = bytes ++ rest := ByteBuffer.drop_add hsent
  have hsize : b.storage.length - b.rpos = 2 + (bytes.length + rest.length) := by
    have hlength := congrArg List.length hsent
    rwa [List.length_drop, List.length_append, length_bytesOf, List.length_append] at hlength
  unfold ByteBuffer.readBytes ByteBuffer.read ByteBuffer.size
  dsimp only
  rw [if_neg (by omega), hrest, List.take_left]
  rfl

theorem readGuid_announced (guid : ObjectGuid)
    (hsent : b.storage.drop b.rpos = bytesOf 2 value.toNat ++ (bytes ++ rest))
    (hbytes : bytes.length = popcount value.toNat) :
    readGuid b guid = .ok (unpacked value.toNat bytes, { b with
      bitpos := 8, curbitval := 0, rpos := b.rpos + 2 + popcount value.toNat }) := by
  obtain ⟨hread, hspan⟩ := readBytes_ok hsent
  have htop : value.toNat &&& 0x8000 = 0 ↔ value.toNat.testBit 15 = false := by
    rw [show 0x8000 = 2 ^ 15 from rfl, Nat.and_two_pow]
    cases value.toNat.testBit 15 <;> decide
  rw [hbytes] at hspan
  rw [readGuid, hread]
  dsimp only [Except.mapError, bind, Except.bind]
  rw [hspan]
  dsimp only
  by_cases hlast : value.toNat.testBit 15 = true
  · obtain ⟨s, hrun, -, hguid⟩ := unpackBytes_ok hlast hbytes (guidBytes guid) (Nat.le_refl 16)
    have hall : s.guidBytes = Vector.ofFn fun i => byteAt value.toNat bytes i := by
      apply Vector.ext
      intro i hi
      rw [hguid i hi hi, Vector.getElem_ofFn]
    rw [if_neg (by rw [htop, hlast]; exact Bool.noConfusion), hrun, unpacked, if_pos hlast]
    exact congrArg (fun bytes => Except.ok (ofGuidBytes bytes, _)) hall
  · rw [if_pos (htop.mpr (Bool.eq_false_iff.mpr hlast)), unpacked, if_neg hlast]

/-- Reading fails at the end of the bytes or takes those of the mask. -/
theorem readGuid_cases (b : ByteBuffer) (guid : ObjectGuid) :
    (∃ pos size valueSize,
      readGuid b guid = .error (.buffer (.positionException pos size valueSize))) ∨
    ∃ (value : IntegerType.uint16.Value) (bytes rest : List UInt8),
      b.storage.drop b.rpos = bytesOf 2 value.toNat ++ (bytes ++ rest) ∧
        bytes.length = popcount value.toNat := by
  by_cases hmask : b.rpos + 2 > b.size
  · refine Or.inl ⟨b.rpos, b.size, 2, ?_⟩
    have hthrow : b.readInteger .uint16 = .error (.positionException b.rpos b.size 2) := by
      rw [ByteBuffer.readInteger, ByteBuffer.read, if_pos (by exact hmask)]
      rfl
    rw [readGuid, hthrow]
    rfl
  · have hsize : b.size = b.storage.length := rfl
    have hlength : ((b.storage.drop b.rpos).take 2).length = 2 := by
      rw [List.length_take, List.length_drop]
      omega
    have hlt := @valueOf_lt ((b.storage.drop b.rpos).take 2)
    have hback := @bytesOf_valueOf ((b.storage.drop b.rpos).take 2)
    rw [hlength] at hlt hback
    let value : IntegerType.uint16.Value :=
      BitVec.ofNat _ (valueOf ((b.storage.drop b.rpos).take 2))
    have hvalue : bytesOf 2 value.toNat = (b.storage.drop b.rpos).take 2 := by
      have hfits : valueOf ((b.storage.drop b.rpos).take 2) < 2 ^ (8 * IntegerType.uint16.sizeof) :=
        hlt
      rw [BitVec.toNat_ofNat, Nat.mod_eq_of_lt hfits, hback]
    have hsent : b.storage.drop b.rpos =
        bytesOf 2 value.toNat ++ ([] ++ b.storage.drop (b.rpos + 2)) := by
      rw [hvalue, List.nil_append, ← List.drop_drop, List.take_append_drop]
    by_cases hspan : b.rpos + 2 + popcount value.toNat > b.size
    · refine Or.inl ⟨b.rpos + 2, b.size, popcount value.toNat, ?_⟩
      obtain ⟨hread, -⟩ := readBytes_ok hsent
      rw [readGuid, hread]
      dsimp only [Except.mapError, bind, Except.bind]
      rw [ByteBuffer.readBytes, ByteBuffer.read, if_pos (by exact hspan)]
      rfl
    · refine Or.inr ⟨value, (b.storage.drop (b.rpos + 2)).take (popcount value.toNat),
        (b.storage.drop (b.rpos + 2)).drop (popcount value.toNat), ?_, ?_⟩
      · rw [List.take_append_drop]
        exact hsent
      · rw [List.length_take, List.length_drop]
        omega

end Reader

section RoundTrip

theorem ofGuidBytes_guidBytes (guid : ObjectGuid) : ofGuidBytes (guidBytes guid) = guid := by
  have hlow : valueOf ((guidBytes guid).toList.take 8) = guid.low.toNat := by
    rw [guidBytes, Vector.toList_mk, List.take_left' (length_bytesOf 8 _), valueOf_bytesOf]
    exact Nat.mod_eq_of_lt guid.low.toNat_lt
  have hhigh : valueOf ((guidBytes guid).toList.drop 8) = guid.high.toNat := by
    rw [guidBytes, Vector.toList_mk, List.drop_left' (length_bytesOf 8 _), valueOf_bytesOf]
    exact Nat.mod_eq_of_lt guid.high.toNat_lt
  rw [ofGuidBytes, hlow, hhigh, UInt64.ofNat_toNat, UInt64.ofNat_toNat]

variable {mask : Nat} {guid : ObjectGuid}

section
variable (h : Presence mask (guidBytes guid).toList)
include h

theorem byteAt_sent (i : Nat) (hi : i < 16) :
    byteAt mask ((guidBytes guid).toList.filter (· != 0)) i = (guidBytes guid)[i] := by
  have hget : (guidBytes guid).toList[i]? = some (guidBytes guid)[i] := by
    rw [List.getElem?_eq_getElem (by simpa using hi), Vector.getElem_toList]
  rw [byteAt, h i, hget]
  by_cases hbyte : (guidBytes guid)[i] = 0
  · rw [hbyte]
    rfl
  · rw [if_pos (by simpa using hbyte), h.getElem_filter hget hbyte, getD_some]

theorem testBit_last : mask.testBit 15 = ((guidBytes guid)[15] != 0) := by
  have hget : (guidBytes guid).toList[15]? = some (guidBytes guid)[15] := by
    rw [List.getElem?_eq_getElem (by simp), Vector.getElem_toList]
  rw [h 15, hget, any_some]

theorem unpacked_sent :
    unpacked mask ((guidBytes guid).toList.filter (· != 0)) =
      if (guidBytes guid)[15] ≠ 0 then guid else ObjectGuid.empty := by
  rw [unpacked, testBit_last h]
  by_cases hlast : (guidBytes guid)[15] = 0
  · rw [hlast]
    rfl
  rw [if_pos (by simpa using hlast), if_pos hlast]
  have hbytes : (Vector.ofFn fun i : Fin 16 =>
      byteAt mask ((guidBytes guid).toList.filter (· != 0)) i) = guidBytes guid := by
    apply Vector.ext
    intro i hi
    rw [Vector.getElem_ofFn, byteAt_sent h i hi]
  rw [hbytes, ofGuidBytes_guidBytes]

theorem popcount_sent : ((guidBytes guid).toList.filter (· != 0)).length = popcount mask := by
  rw [popcount, h.bitsBelow_eq, List.take_of_length_le (by simp)]

end

end RoundTrip

/-- What is written for a guid is as long as its mask and its bytes that are not zero, and is
read as the guid, or as the empty guid where its type is zero, with whatever behind it. -/
theorem packed_guid (garbage : Vector UInt8 18) :
    (∀ guid, ∃ sent, packGuid garbage guid = .ok sent ∧
      sent.length = 2 + (guidBytes guid).toList.countP (· != 0) ∧
      (∀ b, writeGuid garbage b guid = (b.append sent).mapError .buffer) ∧
      ∀ (b : ByteBuffer) (old : ObjectGuid) (rest : List UInt8),
        b.storage.drop b.rpos = sent ++ rest →
          readGuid b old = .ok (if (guidBytes guid)[15] ≠ 0 then guid else ObjectGuid.empty,
            { b with bitpos := 8, curbitval := 0, rpos := b.rpos + sent.length })) ∧
    ∀ (b : ByteBuffer) (old : ObjectGuid), (∃ pos size valueSize,
        readGuid b old = .error (.buffer (.positionException pos size valueSize))) ∨
      ∃ (value : IntegerType.uint16.Value) (bytes rest : List UInt8) (guid : ObjectGuid),
        b.storage.drop b.rpos = bytesOf 2 value.toNat ++ (bytes ++ rest) ∧
        bytes.length = popcount value.toNat ∧
        ∀ (b' : ByteBuffer) (old' : ObjectGuid) (rest' : List UInt8),
          b'.storage.drop b'.rpos = bytesOf 2 value.toNat ++ (bytes ++ rest') →
            readGuid b' old' = .ok (guid, { b' with
              bitpos := 8, curbitval := 0, rpos := b'.rpos + 2 + popcount value.toNat }) := by
  constructor
  · intro guid
    obtain ⟨mask, hfits, hmask, hpack⟩ := packGuid_ok garbage guid
    have hvalue : (BitVec.ofNat (8 * IntegerType.uint16.sizeof) mask).toNat = mask := by
      exact Nat.mod_eq_of_lt hfits
    refine ⟨_, hpack, ?_, ?_, ?_⟩
    · rw [List.length_append, length_bytesOf, List.countP_eq_length_filter]
    · intro b
      rw [writeGuid, hpack]
      rfl
    · intro b old rest hsent
      rw [List.append_assoc, ← hvalue] at hsent
      have hread := readGuid_announced old hsent (by rw [hvalue, popcount_sent hmask])
      rw [hvalue, unpacked_sent hmask] at hread
      rw [hread, List.length_append, length_bytesOf, popcount_sent hmask, Nat.add_assoc]
  · intro b old
    refine (readGuid_cases b old).imp_right ?_
    rintro ⟨value, bytes, rest, hsent, hbytes⟩
    exact ⟨value, bytes, rest, unpacked value.toNat bytes, hsent, hbytes,
      fun b' old' rest' hsent' => readGuid_announced old' hsent' hbytes⟩

end LegionServer.Guarantees.PackedGuids
