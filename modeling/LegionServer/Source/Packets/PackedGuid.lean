import LegionServer.Source.Objects.ObjectGuid
import LegionServer.Source.Packets.ReaderEffects

/-!
# Packed guids

How a guid is written to a packet and read from it (`ObjectGuid.cpp:942-992`): a mask of the
bytes that are not zero, then these bytes. The loops read and write the byte at their index
before they know whether there is one; an index past the end is a fault.
-/
namespace LegionServer.Source.Packets
open Library Source.Objects

inductive PackedGuidFault where
  /-- What `ByteBuffer` throws. -/
  | buffer (error : ByteBufferError)
  | outOfBounds (index : Nat)
  deriving DecidableEq

/-- The memory of `_data`. -/
def guidBytes (guid : ObjectGuid) : Vector UInt8 16 :=
  ⟨(bytesOf 8 guid.low.toNat ++ bytesOf 8 guid.high.toNat).toArray, by simp⟩

def ofGuidBytes (bytes : Vector UInt8 16) : ObjectGuid :=
  ⟨.ofNat (valueOf (bytes.toList.drop 8)), .ofNat (valueOf (bytes.toList.take 8))⟩

def bitsBelow (mask n : Nat) : Nat := (List.range n).countP mask.testBit

/-- `std::popcount` of 16 bits. -/
def popcount (mask : Nat) : Nat := bitsBelow mask 16

structure PackState where
  bytes : Vector UInt8 18
  mask : Nat := 0
  outputByteIndex : Nat := 2

/-- The body of the loop of `operator<<`. -/
def packByte (inputByteIndex : Nat) (byte : UInt8) (s : PackState) :
    Except PackedGuidFault PackState :=
  if h : s.outputByteIndex < 18 then
    let hasByte := if byte != 0 then 1 else 0
    .ok {
      bytes := s.bytes.set s.outputByteIndex byte
      mask := s.mask ||| hasByte <<< inputByteIndex
      outputByteIndex := s.outputByteIndex + hasByte }
  else .error (.outOfBounds s.outputByteIndex)

def packBytes (inputByteIndex : Nat) :
    List UInt8 → PackState → Except PackedGuidFault PackState
  | [], s => .ok s
  | byte :: guidBytes, s => do
    let s ← packByte inputByteIndex byte s
    packBytes (inputByteIndex + 1) guidBytes s

/-- The bytes that `operator<<` appends; `bytes` is the array as it was before. -/
def packGuid (bytes : Vector UInt8 18) (guid : ObjectGuid) :
    Except PackedGuidFault (List UInt8) := do
  let s ← packBytes 0 (guidBytes guid).toList { bytes }
  let bytes := (s.bytes.set 0 (.ofNat (s.mask &&& 0xFF))).set 1 (.ofNat ((s.mask >>> 8) &&& 0xFF))
  if s.outputByteIndex ≤ 18 then .ok (bytes.toList.take s.outputByteIndex)
  else .error (.outOfBounds 18)

/-- `operator<<`. -/
def writeGuid (bytes : Vector UInt8 18) (buf : ByteBuffer) (guid : ObjectGuid) :
    Except PackedGuidFault ByteBuffer := do
  let packed ← packGuid bytes guid
  (buf.append packed).mapError .buffer

/-- `ReadBytes`, with the bytes that its span shows. -/
def ByteBuffer.readBytes (b : ByteBuffer) (length : Nat) :
    Except ByteBufferError (List UInt8 × ByteBuffer) := b.read length

structure UnpackState where
  guidBytes : Vector UInt8 16
  inputByteIndex : Nat := 0

/-- The body of the loop of `operator>>`. -/
def unpackByte (mask : Nat) (bytes : List UInt8) (s : UnpackState) (outputByteIndex : Nat) :
    Except PackedGuidFault UnpackState :=
  let hasByte := (mask >>> outputByteIndex) &&& 1
  match bytes[s.inputByteIndex]? with
  | none => .error (.outOfBounds s.inputByteIndex)
  | some byte =>
    if h : outputByteIndex < 16 then
      .ok {
        guidBytes := s.guidBytes.set outputByteIndex (byte &&& -(UInt8.ofNat hasByte))
        inputByteIndex := s.inputByteIndex + hasByte }
    else .error (.outOfBounds outputByteIndex)

/-- `operator>>`; `guid` is what the variable held before. -/
def readGuid (buf : ByteBuffer) (guid : ObjectGuid) :
    Except PackedGuidFault (ObjectGuid × ByteBuffer) := do
  let (mask, buf) ← (buf.readInteger .uint16).mapError .buffer
  let (bytes, buf) ← (buf.readBytes (popcount mask.toNat)).mapError .buffer
  if mask.toNat &&& 0x8000 = 0 then .ok (ObjectGuid.empty, buf)
  else
    let s ← (List.range 16).foldlM (unpackByte mask.toNat bytes) { guidBytes := guidBytes guid }
    .ok (ofGuidBytes s.guidBytes, buf)

section Bits

variable {mask n m : Nat} {bytes : List UInt8}

theorem bitsBelow_succ : bitsBelow mask (n + 1) = bitsBelow mask n + (mask.testBit n).toNat := by
  rw [bitsBelow, List.range_succ, List.countP_append, List.countP_singleton, ← bitsBelow]
  cases mask.testBit n <;> rfl

theorem bitsBelow_mono (h : n ≤ m) : bitsBelow mask n ≤ bitsBelow mask m :=
  List.Sublist.countP_le (List.range_sublist.mpr h)

theorem bitsBelow_lt (hlast : mask.testBit 15 = true) (h : n < 16) :
    bitsBelow mask n < popcount mask := by
  have hmono : bitsBelow mask n ≤ bitsBelow mask 15 := bitsBelow_mono (Nat.le_of_lt_succ h)
  rw [popcount, bitsBelow_succ, hlast]
  exact Nat.lt_succ_of_le hmono

def Presence (mask : Nat) (bytes : List UInt8) : Prop :=
  ∀ i, mask.testBit i = bytes[i]?.any (· != 0)

theorem Presence.bitsBelow_eq (h : Presence mask bytes) :
    bitsBelow mask n = ((bytes.take n).filter (· != 0)).length := by
  induction n with
  | zero => rfl
  | succ n ih =>
    rw [bitsBelow_succ, ih, h n, List.take_add_one, List.filter_append, List.length_append]
    congr 1
    cases bytes[n]? with
    | none => rfl
    | some byte =>
      by_cases hbyte : byte = 0 <;> simp [hbyte]

theorem Presence.getElem_filter (h : Presence mask bytes) {byte : UInt8}
    (hbyte : bytes[n]? = some byte) (hne : byte ≠ 0) :
    (bytes.filter (· != 0))[bitsBelow mask n]? = some byte := by
  obtain ⟨hn, hget⟩ := List.getElem?_eq_some_iff.mp hbyte
  have hsplit : bytes.filter (· != 0) =
      (bytes.take n).filter (· != 0) ++ byte :: (bytes.drop (n + 1)).filter (· != 0) := by
    conv_lhs => rw [← List.take_append_drop n bytes]
    rw [List.filter_append, List.drop_eq_getElem_cons hn, hget,
      List.filter_cons_of_pos (p := fun x => x != 0) (bne_iff_ne.mpr hne)]
  rw [hsplit, h.bitsBelow_eq, List.getElem?_append_right (Nat.le_refl _), Nat.sub_self,
    List.getElem?_cons_zero]

end Bits

end LegionServer.Source.Packets
