import LegionServer.Source.DataStores.DB2FileLoader

/-!
# Sparse tables

`DB2FileLoaderSparseImpl` as far as its strings and its record copies go
(`DB2FileLoader.cpp:980-1055`, `1178-1317`, `1415-1428`, `1507-1576`). The records of a sparse
table have no common size: a catalog tells where each of them is in the file.
-/
namespace LegionServer.Source.DataStores
open Library

structure DB2CatalogEntry where
  fileOffset : UInt32
  recordSize : UInt16

def Layout.catalogEntry : PlainData DB2CatalogEntry :=
  (PlainData.uint32.pair PlainData.uint16).as (fun (fileOffset, recordSize) => ⟨fileOffset, recordSize⟩)
    (fun entry => (entry.fileOffset, entry.recordSize)) fun _ => rfl

/-- `fieldOffsets` has the offsets of `_fieldAndArrayOffsets` by field and array index. -/
structure DB2FileLoaderSparseImpl where
  fileName : String
  loadInfo : Option DB2FileLoadInfo
  header : DB2Header
  source : DB2FileSource
  totalRecordSize : Nat := 0
  maxRecordSize : UInt16 := 0
  recordBuffer : List UInt8 := []
  sections : List DB2SectionHeader := []
  fields : List DB2FieldEntry := []
  fieldOffsets : List (List Nat) := []
  catalogIds : List UInt32 := []
  catalog : List DB2CatalogEntry := []
  copyTable : List DB2RecordCopy := []

namespace DB2FileLoaderSparseImpl

variable (impl : DB2FileLoaderSparseImpl)

/-- `SkipEncryptedSection`: the entries of the section are zero. -/
def skipEncryptedSection (sectionHeader : DB2SectionHeader) : DB2FileLoaderSparseImpl :=
  let count := sectionHeader.catalogDataCount.toNat
  { impl with
    catalogIds := impl.catalogIds ++ List.replicate count 0
    catalog := impl.catalog ++ List.replicate count ⟨0, 0⟩ }

/-- The size of the catalog's new entries, and the largest of them. -/
def addRecordSizes (entries : List DB2CatalogEntry) : DB2FileLoaderSparseImpl :=
  { impl with
    totalRecordSize := entries.foldl (fun total entry => total + entry.recordSize.toNat)
      impl.totalRecordSize
    maxRecordSize := entries.foldl (fun largest entry => max largest entry.recordSize)
      impl.maxRecordSize }

/-- `LoadCatalogData`; `none` is its `false`. -/
def loadCatalogData (sectionHeader : DB2SectionHeader) :
    Except DB2Failure (Option DB2FileLoaderSparseImpl) := do
  let count := sectionHeader.catalogDataCount.toNat
  let copyCount := sectionHeader.copyTableCount.toNat
  let source := { impl.source with position := sectionHeader.catalogDataOffset.toNat }
  match source.read (4 * count) with
  | none => .ok none
  | some (ids, source) =>
    let copies := if copyCount = 0 then some ([], source)
      else source.read (Layout.recordCopy.size * copyCount)
    match copies with
    | none => .ok none
    | some (copies, source) =>
      match source.read (Layout.catalogEntry.size * count) with
      | none => .ok none
      | some (bytes, source) =>
        let entries := Layout.catalogEntry.readAll count bytes
        .ok (some (addRecordSizes { impl with
          source
          catalogIds := impl.catalogIds ++ PlainData.uint32.readAll count ids
          copyTable := impl.copyTable ++ Layout.recordCopy.readAll copyCount copies
          catalog := impl.catalog ++ entries } entries))

/-- The body of the loop of `Load` over the sections, without the id table, which
`SetAdditionalData` drops, and the parent lookups. -/
def loadSection (i : Nat) : Except DB2Failure DB2FileLoaderSparseImpl := do
  let fileName := impl.fileName
  let sectionHeader ← element impl.sections i
  let process (impl : DB2FileLoaderSparseImpl) : Except DB2Failure DB2FileLoaderSparseImpl := do
    let loaded ← impl.loadCatalogData sectionHeader
    match loaded with
    | none =>
      .error (.exception s!"Unable to read section catalog data from {fileName} for section {i}")
    | some impl => .ok impl
  if isKnownTactId sectionHeader.tactId then process impl
  else
    match impl.source.handleEncryptedSection sectionHeader with
    | .skip => .ok (impl.skipEncryptedSection sectionHeader)
    | .process => process { impl with
        sections := impl.sections.set i { sectionHeader with tactId := dummyKnownTactId } }

/-- The loop over the sections and `SetAdditionalData`. -/
def loadSections : Except DB2Failure DB2FileLoaderSparseImpl := do
  let impl ← (List.range impl.header.sectionCount.toNat).foldlM loadSection impl
  .ok { impl with recordBuffer := List.replicate impl.maxRecordSize.toNat 0 }

/-- `GetFieldSize`; `UnusedBits` is signed. -/
def getFieldSize (field : Nat) : Except DB2Failure Nat :=
  if field < impl.header.fieldCount.toNat then do
    let entry ← element impl.fields field
    .ok (((4 - entry.unusedBits.toInt16.toInt.tdiv 8) % 2 ^ 16).toNat)
  else .error .assertion

/-- `strlen` of a string in the record buffer. -/
def strlen (rawRecord : List UInt8) (offset : Nat) : Except DB2Failure Nat :=
  let rest := rawRecord.drop offset
  let text := rest.takeWhile (· ≠ 0)
  if text.length < rest.length then .ok text.length else .error .undefined

/-- How far `CalculateAndStoreFieldOffsets` goes on for a member. -/
def memberWidth (rawRecord : List UInt8) (field : Nat) (type : DBCFormer) (offset : Nat) :
    Except DB2Failure Nat :=
  match type with
  | .byte | .short | .int | .long => impl.getFieldSize field
  | .float => .ok 4
  | .string | .stringNotLocalized => do
    let length ← strlen rawRecord offset
    .ok (length + 1)

/-- The offsets of the elements of a field, and where the next field starts. -/
def elementOffsets (rawRecord : List UInt8) (field : Nat) (type : DBCFormer) :
    Nat → Nat → Except DB2Failure (List Nat × Nat)
  | 0, offset => .ok ([], offset)
  | count + 1, offset => do
    let width ← impl.memberWidth rawRecord field type offset
    let (offsets, last) ← elementOffsets rawRecord field type count (offset + width)
    .ok (offset :: offsets, last)

/-- `CalculateAndStoreFieldOffsets` from a field on: the offsets, and where the record ends. -/
def fieldOffsetsFrom (rawRecord : List UInt8) :
    List DB2MetaField → Nat → Nat → Except DB2Failure (List (List Nat) × Nat)
  | [], _, offset => .ok ([], offset)
  | entry :: entries, field, offset => do
    let (offsets, offset) ← impl.elementOffsets rawRecord field entry.type entry.arraySize.toNat offset
    let (others, last) ← fieldOffsetsFrom rawRecord entries (field + 1) offset
    .ok (offsets :: others, last)

def calculateAndStoreFieldOffsets (info : DB2FileLoadInfo) (rawRecord : List UInt8) :
    Except DB2Failure (List (List Nat) × Nat) :=
  impl.fieldOffsetsFrom rawRecord (info.description.fields.take info.description.fieldCount.toNat) 0 0

/-- `GetRawRecordData` of a record in a section: the loader with the record in its buffer, or
`none` for the null pointer. -/
def getRawRecordData (recordNumber sectionIndex : Nat) :
    Except DB2Failure (Option DB2FileLoaderSparseImpl) :=
  match impl.catalog[recordNumber]? with
  | none => .ok none
  | some entry => do
    let sectionHeader ← element impl.sections sectionIndex
    if !isKnownTactId sectionHeader.tactId then .ok none
    else
      let source := { impl.source with position := entry.fileOffset.toNat }
      match source.read entry.recordSize.toNat with
      | none => .ok none
      | some (bytes, source) => do
        let rawRecord ← pointee (store impl.recordBuffer 0 bytes)
        let info ← pointee impl.loadInfo
        let (fieldOffsets, _) ← impl.calculateAndStoreFieldOffsets info rawRecord
        .ok (some { impl with source, recordBuffer := rawRecord, fieldOffsets })

/-- `GetFieldOffset`, a `uint16`. -/
def getFieldOffset (field arrayIndex : Nat) : Except DB2Failure Nat := do
  let offsets ← element impl.fieldOffsets field
  let offset ← element offsets arrayIndex
  .ok (offset % 2 ^ 16)

/-- `RecordGetString`, up to its NUL. -/
def recordGetString (field arrayIndex : Nat) : Except DB2Failure (List UInt8) :=
  if field < impl.header.fieldCount.toNat then do
    let offset ← impl.getFieldOffset field arrayIndex
    let length ← strlen impl.recordBuffer offset
    .ok ((impl.recordBuffer.drop offset).take length)
  else .error .assertion

end DB2FileLoaderSparseImpl

/-!
# Strings and copies of produced records

What follows `AutoProduceData`: `AutoProduceStrings` of sparse tables and
`AutoProduceRecordCopies` of both kinds (`DB2FileLoader.cpp:613-633`, `1178-1317`), on the table
that `AutoProduceData` left. A pointer into the table is its place there.
-/

/-- The index table and the data table of `AutoProduceData`. -/
structure ProducedTable where
  indexTable : List (Option Nat)
  dataTable : List UInt8

/-- Where `AutoProduceData` writes the first element of a field in a record: it goes on by the
types of `_loadInfo->Fields` (`DB2FileLoader.cpp:430-521`, `1098-1170`). -/
def producedOffset (info : DB2FileLoadInfo) (field : Nat) : Nat :=
  let written := info.fields.take (info.getFieldIndexByMetaIndex field)
  (written.map fun entry => entry.type.size).sum

/-- Where `AutoProduceData` writes the id. -/
def producedIdOffset (info : DB2FileLoadInfo) : Nat :=
  if info.description.hasIndexFieldInData then
    producedOffset info info.description.getIndexField.toNat
  else 0

def copySource (records : UInt32) (indexTable : List (Option Nat)) (copy : DB2RecordCopy) :
    Option Nat :=
  if copy.sourceRowId ≠ 0 ∧ copy.sourceRowId < records ∧ copy.newRowId < records then
    indexTable.getD copy.sourceRowId.toNat none
  else none

/-- The body of the loop of `AutoProduceRecordCopies`, with its `offset`. -/
def produceCopy (recordsize idFieldOffset records : UInt32) (state : ProducedTable × UInt32)
    (copy : DB2RecordCopy) : Except DB2Failure (ProducedTable × UInt32) := do
  let (table, offset) := state
  match copySource records table.indexTable copy with
  | none => .ok (table, offset)
  | some _ =>
    let indexTable := table.indexTable.set copy.newRowId.toNat (some offset.toNat)
    -- the source is looked up again after the new row has its place
    let source ← pointee (indexTable.getD copy.sourceRowId.toNat none)
    let bytes ← pointee (load table.dataTable source recordsize.toNat)
    let dataTable ← pointee (store table.dataTable offset.toNat bytes)
    let dataTable ← pointee
      (store dataTable (offset + idFieldOffset).toNat (bytesOf 4 copy.newRowId.toNat))
    .ok (⟨indexTable, dataTable⟩, offset + recordsize)

/-- The loop of `AutoProduceRecordCopies`. -/
def produceCopies (recordsize recordCount idFieldOffset records : UInt32)
    (copies : List DB2RecordCopy) (table : ProducedTable) : Except DB2Failure ProducedTable := do
  let (table, _) ← copies.foldlM (produceCopy recordsize idFieldOffset records)
    (table, recordCount * recordsize)
  .ok table

namespace DB2FileLoaderRegularImpl

variable (impl : DB2FileLoaderRegularImpl)

/-- `idFieldOffset` of a table whose records are not sparse: the offset in the file. -/
def copiedIdOffset (info : DB2FileLoadInfo) : Except DB2Failure UInt32 :=
  if info.description.hasIndexFieldInData then do
    let offset ← impl.getFieldOffset info.description.getIndexField
    .ok offset.toUInt32
  else .ok 0

def autoProduceRecordCopies (records : UInt32) (table : ProducedTable) :
    Except DB2Failure ProducedTable :=
  if impl.copyTable.length = 0 then .ok table
  else do
    let info ← pointee impl.loadInfo
    let idFieldOffset ← impl.copiedIdOffset info
    produceCopies (UInt32.ofNat info.description.getRecordSize) impl.header.recordCount
      idFieldOffset records impl.copyTable table

end DB2FileLoaderRegularImpl

namespace DB2FileLoaderSparseImpl

variable (impl : DB2FileLoaderSparseImpl)

/-- `idFieldOffset` of a sparse table: the offset in the record that was produced. -/
def copiedIdOffset (info : DB2FileLoadInfo) : UInt32 :=
  if info.description.hasIndexFieldInData then UInt32.ofNat info.description.getIndexFieldOffset
  else 0

def autoProduceRecordCopies (records : UInt32) (table : ProducedTable) :
    Except DB2Failure ProducedTable :=
  if impl.copyTable.length = 0 then .ok table
  else do
    let info ← pointee impl.loadInfo
    produceCopies (UInt32.ofNat info.description.getRecordSize) impl.header.recordCount
      (copiedIdOffset info) records impl.copyTable table

end DB2FileLoaderSparseImpl

/-- What `AutoProduceStrings` allocates and what it does to it: the bytes that were copied so far,
and the pointers in the data table with the places in the pool that they point to. -/
structure StringPool where
  size : Nat
  bytes : List UInt8 := []
  pointers : List (Nat × Nat) := []

/-- `strcpy` to the end of what was copied. -/
def StringPool.copy (pool : StringPool) (pointer : Nat) (text : List UInt8) :
    Except DB2Failure StringPool :=
  if pool.bytes.length + (text.length + 1) ≤ pool.size then
    .ok { pool with
      bytes := pool.bytes ++ (text ++ [0])
      pointers := pool.pointers ++ [(pointer, pool.bytes.length)] }
  else .error .undefined

namespace DB2FileLoaderSparseImpl

variable (impl : DB2FileLoaderSparseImpl)

/-- "string table size is "total size of all records" - RecordCount * "size of record without
strings"". -/
def stringTableSize (info : DB2FileLoadInfo) : UInt64 :=
  let records := UInt32.ofNat impl.catalog.length
  let recordsize := UInt32.ofNat info.description.getRecordSize
  let stringFields := info.getStringFieldCount false
  let localizedStringFields := info.getStringFieldCount true
  let stringsInRecordSize := UInt64.ofNat ((stringFields - localizedStringFields) * 8)
  let localizedStringsInRecordSize := UInt64.ofNat (localizedStringFields * (12 * 8))
  UInt64.ofNat impl.totalRecordSize - records.toUInt64 *
    ((recordsize - if info.description.hasIndexFieldInData then 0 else 4).toUInt64 -
      stringsInRecordSize - localizedStringsInRecordSize)

/-- The state of the loops of `AutoProduceStrings` in a record. -/
structure MemberState where
  pool : StringPool
  offset : Nat
  fieldIndex : Nat

/-- The body of the innermost loop, for element `z` of field `x`. -/
def produceString (info : DB2FileLoadInfo) (locale recordData x : Nat) (state : MemberState)
    (z : Nat) : Except DB2Failure MemberState := do
  let entry ← element info.fields state.fieldIndex
  let next (pool : StringPool) : MemberState :=
    ⟨pool, state.offset + entry.type.size, state.fieldIndex + 1⟩
  match entry.type with
  | .float | .int | .byte | .short | .long => .ok (next state.pool)
  | .string => do
    let text ← impl.recordGetString x z
    let pool ← state.pool.copy (recordData + state.offset + 8 * locale) text
    .ok (next pool)
  | .stringNotLocalized => do
    let text ← impl.recordGetString x z
    let pool ← state.pool.copy (recordData + state.offset) text
    .ok (next pool)

/-- The strings of the record in the buffer, from field `x` on. -/
def produceFields (info : DB2FileLoadInfo) (locale recordData : Nat) :
    List DB2MetaField → Nat → MemberState → Except DB2Failure MemberState
  | [], _, state => .ok state
  | field :: fields, x, state => do
    let state ← (List.range field.arraySize.toNat).foldlM
      (impl.produceString info locale recordData x) state
    produceFields info locale recordData fields (x + 1) state

/-- The body of the loop over the records of a section. -/
def produceRecord (info : DB2FileLoadInfo) (locale sectionIndex : Nat)
    (indexTable : List (Option Nat)) (state : DB2FileLoaderSparseImpl × StringPool) (y : Nat) :
    Except DB2Failure (DB2FileLoaderSparseImpl × StringPool) := do
  let (impl, pool) := state
  let rawRecord ← impl.getRawRecordData y sectionIndex
  match rawRecord with
  | none => .ok (impl, pool)
  | some impl => do
    let indexVal ← element impl.catalogIds y
    match indexTable[indexVal.toNat]? with
    | none => .ok (impl, pool)
    | some pointer => do
      let recordData ← pointee pointer
      let start : MemberState :=
        if info.description.hasIndexFieldInData then ⟨pool, 0, 0⟩ else ⟨pool, 4, 1⟩
      let state ← impl.produceFields info locale recordData
        (info.description.fields.take impl.header.fieldCount.toNat) 0 start
      .ok (impl, state.pool)

/-- The loop over the sections, where `y` is the number of the next record. -/
def produceSections (info : DB2FileLoadInfo) (locale : Nat) (indexTable : List (Option Nat)) :
    List DB2SectionHeader → Nat → Nat → DB2FileLoaderSparseImpl × StringPool →
      Except DB2Failure (DB2FileLoaderSparseImpl × StringPool)
  | [], _, _, state => .ok state
  | sectionHeader :: sections, sectionIndex, y, state =>
    if isKnownTactId sectionHeader.tactId then do
      let count := sectionHeader.catalogDataCount.toNat
      let state ← (List.range' y count).foldlM
        (produceRecord info locale sectionIndex indexTable) state
      produceSections info locale indexTable sections (sectionIndex + 1) (y + count) state
    else
      produceSections info locale indexTable sections (sectionIndex + 1)
        (y + sectionHeader.recordCount.toNat) state

def localeNames : List String :=
  ["enUS", "koKR", "frFR", "deDE", "zhCN", "zhTW", "esES", "esMX", "ruRU", "none", "ptBR", "itIT"]

def detectedLocales : List String :=
  ((localeNames.zipIdx.filter fun (_, i) => impl.header.locale.toNat.testBit i)).map Prod.fst

/-- `AutoProduceStrings`; `none` is the null pointer. -/
def autoProduceStrings (indexTable : List (Option Nat)) (locale : Nat) :
    Except DB2Failure (Option StringPool) := do
  let fileName := impl.fileName
  let info ← pointee impl.loadInfo
  if info.description.fieldCount ≠ impl.header.fieldCount then
    .error (.exception s!"Found unsupported parent index in sparse db2 {fileName}")
  else if !impl.header.locale.toNat.testBit locale then
    let detected := ", ".intercalate impl.detectedLocales
    let wanted := localeNames.getD locale ""
    .error (.exception
      s!"Attempted to load {fileName} which has locales {detected} as {wanted}. Check if you placed your localized db2 files in correct directory.")
  else if info.getStringFieldCount false = 0 then .ok none
  else do
    let (_, pool) ← produceSections info locale indexTable
      (impl.sections.take impl.header.sectionCount.toNat) 0 0
      (impl, { size := (impl.stringTableSize info).toNat })
    .ok (some pool)

end DB2FileLoaderSparseImpl

end LegionServer.Source.DataStores
