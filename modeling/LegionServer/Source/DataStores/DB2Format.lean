import LegionServer.Library.Memory

/-!
# The structures of a DB2 file

The packed structures of `DB2FileLoader.h:31-75`, `122-127` and `DB2FileLoader.cpp:33-104`,
and the field descriptions of `DB2Meta.h` and `DB2Meta.cpp`.
-/
namespace LegionServer.Source.DataStores
open Library

inductive DB2ColumnCompression where
  | none
  | immediate
  | commonData
  | pallet
  | palletArray
  | signedImmediate
  deriving DecidableEq

namespace DB2ColumnCompression

def value : DB2ColumnCompression → UInt32
  | .none => 0
  | .immediate => 1
  | .commonData => 2
  | .pallet => 3
  | .palletArray => 4
  | .signedImmediate => 5

/-- `Option.none` where a `switch` takes its `default`. -/
def ofValue (value : UInt32) : Option DB2ColumnCompression :=
  [.none, .immediate, .commonData, .pallet, .palletArray, .signedImmediate].find?
    fun type => type.value = value

end DB2ColumnCompression

/-- The union of `DB2ColumnMeta`: twelve bytes under several names. -/
structure CompressionData where
  first : UInt32
  second : UInt32
  third : UInt32

namespace CompressionData

def immediateBitOffset (data : CompressionData) : UInt32 := data.first
def palletBitOffset (data : CompressionData) : UInt32 := data.first

end CompressionData

structure DB2ColumnMeta where
  bitOffset : UInt16
  bitSize : UInt16
  additionalDataSize : UInt32
  compressionType : UInt32
  compressionData : CompressionData

def DB2ColumnMeta.compression (column : DB2ColumnMeta) : Option DB2ColumnCompression :=
  DB2ColumnCompression.ofValue column.compressionType

structure DB2FieldEntry where
  unusedBits : UInt16
  offset : UInt16

structure DB2RecordCopy where
  newRowId : UInt32
  sourceRowId : UInt32

/-- The numbers of the header that are read. -/
structure DB2Header where
  recordCount : UInt32
  fieldCount : UInt32
  recordSize : UInt32
  stringTableSize : UInt32
  locale : UInt32
  flags : UInt16
  indexField : UInt16
  packedDataOffset : UInt32
  sectionCount : UInt32

structure DB2SectionHeader where
  tactId : UInt64
  fileOffset : UInt32
  recordCount : UInt32
  stringTableSize : UInt32
  catalogDataOffset : UInt32
  catalogDataCount : UInt32
  copyTableCount : UInt32

namespace Layout
open Library.PlainData

def recordCopy : PlainData DB2RecordCopy :=
  (uint32.pair uint32).as (fun (newRowId, sourceRowId) => ⟨newRowId, sourceRowId⟩)
    (fun copy => (copy.newRowId, copy.sourceRowId)) fun _ => rfl

end Layout

def dummyKnownTactId : UInt64 := 0x5452494E49545900

def isKnownTactId (tactId : UInt64) : Bool := tactId = 0 ∨ tactId = dummyKnownTactId

inductive DBCFormer where
  | string
  | stringNotLocalized
  | float
  | int
  | byte
  | short
  | long
  deriving DecidableEq

/-- What a member of the type takes in a loaded record; a `LocalizedString` has a pointer for
each of `TOTAL_LOCALES`. -/
def DBCFormer.size : DBCFormer → Nat
  | .byte => 1
  | .short => 2
  | .float | .int => 4
  | .long | .stringNotLocalized => 8
  | .string => 12 * 8

structure DB2MetaField where
  type : DBCFormer
  arraySize : UInt8
  isSigned : Bool

structure DB2Meta where
  indexField : Int32
  parentIndexField : Int32
  fieldCount : UInt32
  fileFieldCount : UInt32
  fields : List DB2MetaField

namespace DB2Meta

variable (description : DB2Meta)

def hasIndexFieldInData : Bool := description.indexField != -1

def getIndexField : UInt32 :=
  if description.indexField = -1 then 0 else description.indexField.toUInt32

/-- What the elements of field `i` take, which are wider where they are a parent id that the file
does not have. -/
def elementSize (i : Nat) (field : DB2MetaField) : Nat :=
  if i ≥ description.fileFieldCount.toNat ∧ (i : Int) = description.parentIndexField.toInt then 4
  else field.type.size

/-- The loops of `GetRecordSize` and `GetIndexFieldOffset` over the first fields. -/
def fieldsSize (count : Nat) : Nat :=
  ((description.fields.take count).mapIdx fun i field =>
    (List.replicate field.arraySize.toNat (description.elementSize i field)).sum).sum

def getRecordSize : Nat :=
  description.fieldsSize description.fieldCount.toNat +
    if description.hasIndexFieldInData then 0 else 4

def getIndexFieldOffset : Nat :=
  if description.indexField = -1 then 0 else description.fieldsSize description.indexField.toInt.toNat

end DB2Meta

structure DB2FieldMeta where
  isSigned : Bool
  type : DBCFormer
  name : String

structure DB2FileLoadInfo where
  fields : List DB2FieldMeta
  description : DB2Meta

namespace DB2FileLoadInfo

def getStringFieldCount (info : DB2FileLoadInfo) (localizedOnly : Bool) : Nat :=
  info.fields.countP fun field =>
    field.type = .string || (field.type = .stringNotLocalized && !localizedOnly)

def getFieldIndexByMetaIndex (info : DB2FileLoadInfo) (metaIndex : Nat) : Nat :=
  (if info.description.hasIndexFieldInData then 0 else 1) +
    ((info.description.fields.take metaIndex).map fun field => field.arraySize.toNat).sum

end DB2FileLoadInfo

end LegionServer.Source.DataStores
