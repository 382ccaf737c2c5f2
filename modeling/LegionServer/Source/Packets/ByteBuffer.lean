import LegionServer.Library.Bits
import LegionServer.Library.Outcome
import LegionServer.Source.Common.WideStrings

/-!
# Writing and reading a packet

The bit cursor, the integers and the strings of a `ByteBuffer` (`ByteBuffer.h:117-258`,
`470-564`, `ByteBuffer.cpp:52-138`) on a little-endian host, where `EndianConvert` does
nothing. Values are natural numbers until they are stored in a byte or returned; what has
32 or 64 bits in the source does not overflow on the way.
-/
namespace LegionServer.Source.Packets
open Library Source.Common

inductive ByteBufferError where
  | positionException (pos size valueSize : Nat)
  | invalidValueException (type : String) (value : List UInt8)
  | assertion
  deriving DecidableEq

structure ByteBuffer where
  rpos : Nat := 0
  wpos : Nat := 0
  bitpos : Nat := 8
  curbitval : UInt8 := 0
  storage : List UInt8 := []

/-- The integer types of `ByteBufferNumeric`; signed values have the same bytes. -/
inductive IntegerType where
  | uint8
  | uint16
  | uint32
  | uint64
  deriving DecidableEq

def IntegerType.sizeof : IntegerType → Nat
  | .uint8 => 1
  | .uint16 => 2
  | .uint32 => 4
  | .uint64 => 8

abbrev IntegerType.Value (type : IntegerType) : Type := BitVec (8 * type.sizeof)

namespace ByteBuffer

def ofBytes (buffer : List UInt8) : ByteBuffer := { wpos := buffer.length, storage := buffer }

def size (b : ByteBuffer) : Nat := b.storage.length

def hasUnfinishedBitPack (b : ByteBuffer) : Bool := b.bitpos != 8

def resetBitPos (b : ByteBuffer) : ByteBuffer := { b with bitpos := 8, curbitval := 0 }

section Writing

variable (b : ByteBuffer)

/-- The end of `append`: `resize` if need be, then `memcpy`. -/
def store (src : List UInt8) : ByteBuffer :=
  let newSize := b.wpos + src.length
  let storage := b.storage ++ List.replicate (newSize - b.size) 0
  { b with storage := storage.take b.wpos ++ src ++ storage.drop newSize, wpos := newSize }

/-- The assertions of `append`. -/
def checkAppend (src : List UInt8) : Except ByteBufferError Unit :=
  if src.length = 0 then .error .assertion
  else if b.size + src.length < 100000000 then .ok ()
  else .error .assertion

/-- `append` without an unfinished bit pack, so that its `FlushBits` returns at once. -/
def appendFlushed (src : List UInt8) : Except ByteBufferError ByteBuffer := do
  b.checkAppend src
  .ok (b.store src)

def flushBits : Except ByteBufferError ByteBuffer :=
  if b.bitpos = 8 then .ok b
  else do
    let b ← appendFlushed { b with bitpos := 8 } [b.curbitval]
    .ok { b with curbitval := 0 }

/-- `append(uint8 const*, size_t)`. -/
def append (src : List UInt8) : Except ByteBufferError ByteBuffer := do
  b.checkAppend src
  let b ← b.flushBits
  .ok (b.store src)

/-- `append<T>`. -/
def appendInteger (type : IntegerType) (value : type.Value) : Except ByteBufferError ByteBuffer :=
  b.append (bytesOf type.sizeof value.toNat)

def writeBit (bit : Bool) : Except ByteBufferError ByteBuffer := do
  let b := { b with bitpos := b.bitpos - 1 }
  let b := if bit then { b with curbitval := b.curbitval ||| UInt8.ofNat (1 <<< b.bitpos) } else b
  if b.bitpos = 0 then
    let b ← append { b with bitpos := 8 } [b.curbitval]
    .ok { b with curbitval := 0 }
  else .ok b

/-- "Then append as many full bytes as possible"; the bits that remain. -/
def writeFullBytes (value : Nat) : Nat → ByteBuffer → Except ByteBufferError (ByteBuffer × Nat)
  | bits + 8, b => do
    let b ← b.appendInteger .uint8 (BitVec.ofNat 8 (value >>> bits))
    writeFullBytes value bits b
  | bits, b => .ok (b, bits)

def writeBits (value : UInt64) (bits : Nat) :
    Except ByteBufferError ByteBuffer := do
  let value := value.toNat &&& ((1 <<< bits) - 1)
  if bits > b.bitpos then
    let filled := b.curbitval ||| UInt8.ofNat (value >>> (bits - b.bitpos))
    let bits := bits - b.bitpos
    let b ← append { b with curbitval := filled, bitpos := 8 } [filled]
    let (b, bits) ← writeFullBytes value bits b
    .ok { b with
      bitpos := 8 - bits
      curbitval := UInt8.ofNat ((value &&& ((1 <<< bits) - 1)) <<< (8 - bits)) }
  else
    let bitpos := b.bitpos - bits
    let b := { b with bitpos, curbitval := b.curbitval ||| UInt8.ofNat (value <<< bitpos) }
    if b.bitpos = 0 then
      let b ← append { b with bitpos := 8 } [b.curbitval]
      .ok { b with curbitval := 0 }
    else .ok b

/-- `operator<<(std::string_view)`, which ends the string with a NUL. -/
def writeCString (value : List UInt8) : Except ByteBufferError ByteBuffer := do
  let b ← if value.length ≠ 0 then b.append value else .ok b
  b.appendInteger .uint8 0

def writeString (str : List UInt8) : Except ByteBufferError ByteBuffer :=
  if str.length ≠ 0 then b.append str else .ok b

/-- `bitwpos()`, "position of last written bit". -/
def bitwpos : Nat := b.wpos * 8 + 8 - b.bitpos

/-- The body of the loop of `PutBits`. -/
def putBit (storage : List UInt8) (pos : Nat) (value : Bool) : List UInt8 :=
  let wp := pos / 8
  let bit := pos % 8
  storage.modify wp fun byte =>
    if value then byte ||| UInt8.ofNat (1 <<< (7 - bit))
    else byte &&& ~~~UInt8.ofNat (1 <<< (7 - bit))

def putBits (pos : Nat) (value : UInt64) (bitCount : Nat) : Except ByteBufferError ByteBuffer :=
  if pos + bitCount ≤ b.size * 8 then
    if bitCount ≠ 0 then
      .ok { b with storage := (List.range bitCount).foldl (fun storage i =>
        putBit storage (pos + i) ((value.toNat >>> (bitCount - i - 1)) &&& 1 != 0)) b.storage }
    else .error .assertion
  else .error .assertion

end Writing

section Reading

variable (b : ByteBuffer)

/-- `read(uint8*, size_t)`. -/
def read (len : Nat) : Except ByteBufferError (List UInt8 × ByteBuffer) :=
  if b.rpos + len > b.size then .error (.positionException b.rpos b.size len)
  else .ok ((b.storage.drop b.rpos).take len, { b.resetBitPos with rpos := b.rpos + len })

/-- `read<T>`. -/
def readInteger (type : IntegerType) :
    Except ByteBufferError (type.Value × ByteBuffer) := do
  let (bytes, b) ← b.read type.sizeof
  .ok (BitVec.ofNat _ (valueOf bytes), b)

/-- `read(&_curbitval, 1)`. -/
def readCurbitval : Except ByteBufferError ByteBuffer := do
  let (bytes, b) ← b.read 1
  .ok { b with curbitval := bytes.headD 0 }

def readBit : Except ByteBufferError (Bool × ByteBuffer) := do
  let b ← if b.bitpos ≥ 8 then do
      let b ← b.readCurbitval
      .ok { b with bitpos := 0 }
    else .ok b
  let b := { b with bitpos := b.bitpos + 1 }
  .ok ((b.curbitval.toNat >>> (8 - b.bitpos)) &&& 1 != 0, b)

/-- "Then read as many full bytes as possible": the value, and the bits that remain. -/
def readFullBytes :
    Nat → Nat → ByteBuffer → Except ByteBufferError ((Nat × Nat) × ByteBuffer)
  | bits + 8, value, b => do
    let (byte, b) ← b.readInteger .uint8
    readFullBytes bits (value ||| byte.toNat <<< bits) b
  | bits, value, b => .ok ((value, bits), b)

def readBits (bits : Nat) : Except ByteBufferError (UInt32 × ByteBuffer) :=
  if bits > 8 - b.bitpos then do
    let bitsInBuffer := 8 - b.bitpos
    let value := (b.curbitval.toNat &&& ((1 <<< bitsInBuffer) - 1)) <<< (bits - bitsInBuffer)
    let ((value, bits), b) ← readFullBytes (bits - bitsInBuffer) value b
    if bits ≠ 0 then
      let b ← b.readCurbitval
      let value := value ||| ((b.curbitval.toNat >>> (8 - bits)) &&& ((1 <<< bits) - 1))
      .ok (UInt32.ofNat value, { b with bitpos := bits })
    else .ok (UInt32.ofNat value, b)
  else
    let value := (b.curbitval.toNat >>> (8 - b.bitpos - bits)) &&& ((1 <<< bits) - 1)
    .ok (UInt32.ofNat value, { b with bitpos := b.bitpos + bits })

/-- `ReadCString`; its exceptions have the size and the value's size the other way round. -/
def readCString (requireValidUtf8 : Bool) : Except ByteBufferError (List UInt8 × ByteBuffer) :=
  if b.rpos ≥ b.size then .error (.positionException b.rpos 1 b.size)
  else
    let b := b.resetBitPos
    let rest := b.storage.drop b.rpos
    let value := rest.takeWhile (· ≠ 0)
    if value.length = rest.length then .error (.positionException b.size 1 b.size)
    else if requireValidUtf8 && !Utf8.isValid value then
      .error (.invalidValueException "utf8 string" value)
    else .ok (value, { b with rpos := b.rpos + (value.length + 1) })

def readString (length : Nat) (requireValidUtf8 : Bool) :
    Except ByteBufferError (List UInt8 × ByteBuffer) :=
  if b.rpos + length > b.size then .error (.positionException b.rpos length b.size)
  else
    let b := b.resetBitPos
    if length = 0 then .ok ([], b)
    else
      let value := (b.storage.drop b.rpos).take length
      if requireValidUtf8 && !Utf8.isValid value then
        .error (.invalidValueException "utf8 string" value)
      else .ok (value, { b with rpos := b.rpos + length })

end Reading

end ByteBuffer

/-- A call that writes, with what the call that reads it back requires of a string. -/
inductive PacketField where
  | bit (value : Bool)
  | bits (value : UInt64) (count : Nat)
  | integer (type : IntegerType) (value : type.Value)
  | flushBits
  | cString (value : List UInt8) (requireValidUtf8 : Bool)
  | string (value : List UInt8) (requireValidUtf8 : Bool)

inductive PacketValue where
  | bit (value : Bool)
  | bits (value : UInt32)
  | integer (type : IntegerType) (value : type.Value)
  | nothing
  | string (value : List UInt8)
  deriving DecidableEq

namespace PacketField

def write (b : ByteBuffer) : PacketField → Except ByteBufferError ByteBuffer
  | .bit value => b.writeBit value
  | .bits value count => b.writeBits value count
  | .integer type value => b.appendInteger type value
  | .flushBits => b.flushBits
  | .cString value _ => b.writeCString value
  | .string value _ => b.writeString value

def read (b : ByteBuffer) : PacketField → Except ByteBufferError (PacketValue × ByteBuffer)
  | .bit _ => b.readBit.map fun r => (.bit r.1, r.2)
  | .bits _ count => (b.readBits count).map fun r => (.bits r.1, r.2)
  | .integer type _ => (b.readInteger type).map fun r => (.integer type r.1, r.2)
  | .flushBits => .ok (.nothing, b.resetBitPos)
  | .cString _ requireValidUtf8 =>
    (b.readCString requireValidUtf8).map fun r => (.string r.1, r.2)
  | .string value requireValidUtf8 =>
    (b.readString value.length requireValidUtf8).map fun r => (.string r.1, r.2)

/-- What was written; of `bits`, the low bits. -/
def written : PacketField → PacketValue
  | .bit value => .bit value
  | .bits value count => .bits (UInt32.ofNat (value.toNat % 2 ^ count))
  | .integer type value => .integer type value
  | .flushBits => .nothing
  | .cString value _ => .string value
  | .string value _ => .string value

end PacketField

def writePacket : List PacketField → ByteBuffer → Except ByteBufferError ByteBuffer
  | [], b => .ok b
  | field :: fields, b => field.write b >>= writePacket fields

def readPacket : List PacketField → ByteBuffer → Except ByteBufferError (List PacketValue × ByteBuffer)
  | [], b => .ok ([], b)
  | field :: fields, b => do
    let (value, b) ← field.read b
    let (values, b) ← readPacket fields b
    .ok (value :: values, b)

end LegionServer.Source.Packets
