import LegionServer.Source.DataStores.DB2Format

/-!
# A loaded table and its file

The state of a `DB2FileLoaderRegularImpl` with the offsets of its fields
(`DB2FileLoader.cpp:334-340`, `889-911`) and a source that reads as `DB2FileSystemSource` does.
-/
namespace LegionServer.Source.DataStores
open Library

inductive DB2Failure where
  /-- `std::errc::no_such_file_or_directory`. -/
  | systemError
  | exception (what : String)
  | assertion
  | aborted (text : String)
  /-- An access outside an object, a shift past the width, an endless recursion. -/
  | undefined
  /-- Nothing wrong: `DB2FileLoaderSparseImpl` takes over. -/
  | sparse
  deriving DecidableEq

def element {α : Type} (array : List α) (i : Nat) : Except DB2Failure α :=
  match array[i]? with
  | some value => .ok value
  | none => .error .undefined

/-- What a pointer points to, or an access through a null pointer. -/
def pointee {α : Type} : Option α → Except DB2Failure α
  | some value => .ok value
  | none => .error .undefined

/-- The arrays by column are empty for columns of another kind. -/
structure DB2FileLoaderRegularImpl where
  fileName : String
  loadInfo : Option DB2FileLoadInfo
  header : DB2Header
  data : Option (List UInt8) := none
  sections : List DB2SectionHeader := []
  columnMeta : Option (List DB2ColumnMeta) := none
  palletArrayValues : List (List UInt32) := []
  idTable : List UInt32 := []
  copyTable : List DB2RecordCopy := []

namespace DB2FileLoaderRegularImpl

variable (impl : DB2FileLoaderRegularImpl)

def column (field : UInt32) : Except DB2Failure DB2ColumnMeta := do
  let columns ← pointee impl.columnMeta
  element columns field.toNat

def unhandledCompression (column : DB2ColumnMeta) : DB2Failure :=
  let type := column.compressionType
  let fileName := impl.fileName
  .aborted s!"Unhandled compression type {type} in {fileName}"

def getFieldOffset (field : UInt32) : Except DB2Failure UInt16 :=
  if field < impl.header.fieldCount then do
    let column ← impl.column field
    match column.compression with
    | some .none => .ok (column.bitOffset / 8)
    | some .immediate | some .signedImmediate =>
      .ok (column.compressionData.immediateBitOffset / 8 + impl.header.packedDataOffset).toUInt16
    | some .commonData => .ok 0xFFFF
    | some .pallet | some .palletArray =>
      .ok (column.compressionData.palletBitOffset / 8 + impl.header.packedDataOffset).toUInt16
    | none => .error (impl.unhandledCompression column)
  else .error .assertion

end DB2FileLoaderRegularImpl

inductive DB2EncryptedSectionHandling where
  | skip
  | process
  deriving DecidableEq

structure DB2FileSource where
  fileName : String
  content : List UInt8
  isOpen : Bool := true
  position : Nat := 0
  handleEncryptedSection : DB2SectionHeader → DB2EncryptedSectionHandling := fun _ => .skip

namespace DB2FileSource

/-- `fread(buffer, numBytes, 1, _file) == 1`, which nothing at all does not pass. -/
def read (source : DB2FileSource) (numBytes : Nat) : Option (List UInt8 × DB2FileSource) :=
  if numBytes = 0 then none
  else (load source.content source.position numBytes).map fun bytes =>
    (bytes, { source with position := source.position + numBytes })

end DB2FileSource

end LegionServer.Source.DataStores
