import LegionServer.Library.Outcome
import LegionServer.Source.DataStores.ProducedTables

/-!
# What sparse tables take

What `AutoProduceStrings` copies for a record is its size without the members of fixed width. A
copy that does not fit into the pool is the only failure of the loops.
-/
namespace LegionServer.Source.DataStores
open Library List

/-- `needed` more bytes are copied to the pool, or they do not fit. -/
def Fills {α : Type} (pool : α → StringPool) (start : StringPool) (needed : Nat) (holds : α → Prop)
    (outcome : Except DB2Failure α) : Prop :=
  Ends (fun e => e = .undefined ∧ start.size < start.bytes.length + needed) outcome fun a =>
    start.bytes.length + needed ≤ start.size ∧ (pool a).size = start.size ∧
      (pool a).bytes.length = start.bytes.length + needed ∧ holds a

section Fills

variable {α β : Type} {pool : α → StringPool} {start : StringPool} {needed more : Nat}
  {holds : α → Prop} {outcome : Except DB2Failure α}

theorem Fills.ok {a : α} (hroom : start.bytes.length ≤ start.size) (hpool : pool a = start)
    (h : holds a) : Fills pool start 0 holds (.ok a) :=
  ⟨hroom, by rw [hpool], by rw [hpool, Nat.add_zero], h⟩

variable {pool' : β → StringPool} {after : β → Prop}

theorem Fills.bind {next : α → Except DB2Failure β} (h : Fills pool start needed holds outcome)
    (hnext : ∀ a, holds a → (pool a).bytes.length ≤ (pool a).size →
      Fills pool' (pool a) more after (next a)) :
    Fills pool' start (needed + more) after (outcome >>= next) := by
  cases outcome with
  | error e => exact ⟨h.1, Nat.lt_of_lt_of_le h.2 (by omega)⟩
  | ok a =>
    obtain ⟨hroom, hsize, hbytes, ha⟩ := h
    have hthen := hnext a ha (by omega)
    unfold Fills at hthen ⊢
    rw [hsize, hbytes, Nat.add_assoc] at hthen
    exact hthen

theorem Fills.mono {holds' : α → Prop} (h : Fills pool start needed holds outcome)
    (hholds : ∀ a, holds a → holds' a) : Fills pool start needed holds' outcome :=
  Ends.mono h fun a ⟨hroom, hsize, hbytes, ha⟩ => ⟨hroom, hsize, hbytes, hholds a ha⟩

theorem Fills.map {f : α → β} (h : Fills pool start needed holds outcome)
    (hpool : ∀ a, pool' (f a) = pool a) (hafter : ∀ a, holds a → after (f a)) :
    Fills pool' start needed after (outcome >>= fun a => .ok (f a)) := by
  change Fills pool' start (needed + 0) after _
  refine Fills.bind h fun a ha hroom => ?_
  rw [← hpool a] at hroom ⊢
  exact Fills.ok hroom rfl (hafter a ha)

theorem StringPool.copy_fills (pool : StringPool) (pointer : Nat) (text : List UInt8) :
    Fills id pool (text.length + 1) (fun _ => True) (pool.copy pointer text) := by
  unfold StringPool.copy
  split
  · rename_i hroom
    refine ⟨hroom, rfl, ?_, trivial⟩
    simp
  · exact ⟨rfl, by omega⟩

end Fills

namespace DB2FileLoaderSparseImpl

variable {impl : DB2FileLoaderSparseImpl} {bytes : List UInt8} {field : Nat} {type : DBCFormer}

/-- What a member takes in the file, but for the text of a string. -/
def fixedWidth (impl : DB2FileLoaderSparseImpl) (field : Nat) : DBCFormer → Nat
  | .byte | .short | .int | .long =>
    match impl.getFieldSize field with
    | .ok size => size
    | .error _ => 0
  | .float => 4
  | .string | .stringNotLocalized => 0

/-- What the members of fixed width take, from a field on. -/
def fixedSize (impl : DB2FileLoaderSparseImpl) : List DB2MetaField → Nat → Nat
  | [], _ => 0
  | entry :: entries, field =>
    entry.arraySize.toNat * impl.fixedWidth field entry.type + fixedSize impl entries (field + 1)

section Widths

variable {offset : Nat}

theorem strlen_append {length : Nat} (more : List UInt8) (h : strlen bytes offset = .ok length) :
    strlen (bytes ++ more) offset = .ok length := by
  unfold strlen at h ⊢
  dsimp only at h ⊢
  split at h
  · rename_i hends
    cases h
    have hoffset : offset < bytes.length := by
      rw [length_drop] at hends
      omega
    rw [drop_append_of_le_length hoffset.le, takeWhile_append, if_neg hends.ne, length_append]
    rw [if_pos (by omega)]
  · cases h

theorem memberWidth_append {width : Nat} (more : List UInt8)
    (h : impl.memberWidth bytes field type offset = .ok width) :
    impl.memberWidth (bytes ++ more) field type offset = .ok width := by
  unfold memberWidth at h ⊢
  cases type with
  | byte | short | int | long | float => exact h
  | string | stringNotLocalized =>
    obtain ⟨length, hlength, hwidth⟩ := exists_of_bind_ok h
    rw [strlen_append more hlength]
    exact hwidth

theorem elementOffsets_append {count : Nat} {result : List Nat × Nat} (more : List UInt8)
    (h : impl.elementOffsets bytes field type count offset = .ok result) :
    impl.elementOffsets (bytes ++ more) field type count offset = .ok result := by
  induction count generalizing offset result with
  | zero => exact h
  | succ count ih =>
    rw [elementOffsets] at h ⊢
    obtain ⟨width, hwidth, h⟩ := exists_of_bind_ok h
    obtain ⟨rest, hrest, h⟩ := exists_of_bind_ok h
    rw [memberWidth_append more hwidth]
    change (impl.elementOffsets (bytes ++ more) field type count (offset + width) >>= _) = _
    rw [ih hrest]
    exact h

theorem fieldOffsetsFrom_append {entries : List DB2MetaField} {result : List (List Nat) × Nat}
    (more : List UInt8) (h : impl.fieldOffsetsFrom bytes entries field offset = .ok result) :
    impl.fieldOffsetsFrom (bytes ++ more) entries field offset = .ok result := by
  induction entries generalizing field offset result with
  | nil => exact h
  | cons entry entries ih =>
    rw [fieldOffsetsFrom] at h ⊢
    obtain ⟨elements, helements, h⟩ := exists_of_bind_ok h
    obtain ⟨rest, hrest, h⟩ := exists_of_bind_ok h
    rw [elementOffsets_append more helements]
    change (impl.fieldOffsetsFrom (bytes ++ more) entries (field + 1) elements.2 >>= _) = _
    rw [ih hrest]
    exact h

end Widths

section Texts

variable {info : DB2FileLoadInfo} {state : MemberState}

variable {offset width : Nat}

theorem memberWidth_eq (h : impl.memberWidth bytes field type offset = .ok width) :
    (type ≠ .string ∧ type ≠ .stringNotLocalized ∧ width = impl.fixedWidth field type) ∨
      ((type = .string ∨ type = .stringNotLocalized) ∧ impl.fixedWidth field type = 0 ∧
        ∃ length, strlen bytes offset = .ok length ∧ width = length + 1) := by
  unfold memberWidth at h
  cases type with
  | byte | short | int | long =>
    refine .inl ⟨by decide, by decide, ?_⟩
    unfold fixedWidth
    dsimp only at h ⊢
    rw [h]
  | float =>
    cases h
    exact .inl ⟨by decide, by decide, rfl⟩
  | string | stringNotLocalized =>
    obtain ⟨length, hlength, hwidth⟩ := exists_of_bind_ok h
    cases hwidth
    exact .inr ⟨by decide, rfl, length, hlength, rfl⟩

theorem element_eq {α : Type} {array : List α} {i : Nat} {value : α} (h : array[i]? = some value) :
    element array i = .ok value := by
  unfold element
  rw [h]

theorem pointee_eq {α : Type} {pointer : Option α} {value : α} (h : pointer = some value) :
    pointee pointer = .ok value := by
  rw [h]
  rfl

theorem length_take_strlen {length : Nat} (h : strlen bytes offset = .ok length) :
    ((bytes.drop offset).take length).length = length := by
  unfold strlen at h
  dsimp only at h
  split at h
  · rename_i hends
    cases h
    exact length_take_of_le hends.le
  · cases h

variable {x z : Nat}

theorem produceString_fills (locale recordData : Nat) {entry : DB2FieldMeta} {offsets : List Nat}
    (hentry : info.fields[state.fieldIndex]? = some entry)
    (hfield : impl.fieldOffsets[x]? = some offsets) (hoffset : offsets[z]? = some offset)
    (hsmall : offset < 2 ^ 16) (hx : x < impl.header.fieldCount.toNat)
    (hroom : state.pool.bytes.length ≤ state.pool.size)
    (hwidth : impl.memberWidth impl.recordBuffer x entry.type offset = .ok width) :
    ∃ needed, width = impl.fixedWidth x entry.type + needed ∧
      Fills MemberState.pool state.pool needed (fun next => next.fieldIndex = state.fieldIndex + 1)
        (impl.produceString info locale recordData x state z) := by
  have hplace : impl.getFieldOffset x z = .ok offset := by
    unfold getFieldOffset
    rw [element_eq hfield]
    change (element offsets z >>= _) = _
    rw [element_eq hoffset]
    exact congrArg Except.ok (Nat.mod_eq_of_lt hsmall)
  obtain ⟨isSigned, type, name⟩ := entry
  unfold produceString
  rw [element_eq hentry]
  rcases memberWidth_eq hwidth with ⟨hnot, hnot', rfl⟩ | ⟨htext, hfixed, length, hlength, rfl⟩
  · refine ⟨0, rfl, ?_⟩
    cases type with
    | byte | short | int | long | float => exact Fills.ok hroom rfl rfl
    | string => exact absurd rfl hnot
    | stringNotLocalized => exact absurd rfl hnot'
  · have hstring : impl.recordGetString x z =
        .ok ((impl.recordBuffer.drop offset).take length) := by
      unfold recordGetString
      rw [if_pos hx, hplace]
      change (strlen impl.recordBuffer offset >>= _) = _
      rw [hlength]
      rfl
    have hneeded := length_take_strlen hlength
    have hcopy (pointer : Nat) := state.pool.copy_fills pointer
      ((impl.recordBuffer.drop offset).take length)
    rw [hneeded] at hcopy
    refine ⟨length + 1, by rw [hfixed, Nat.zero_add], ?_⟩
    rw [hstring]
    rcases htext with rfl | rfl
    · exact Fills.map (hcopy _) (fun _ => rfl) fun _ _ => rfl
    · exact Fills.map (hcopy _) (fun _ => rfl) fun _ _ => rfl

variable {last : Nat}

theorem produceElements_fills (info : DB2FileLoadInfo) (locale recordData : Nat) {count : Nat}
    {offsets all : List Nat}
    (h : impl.elementOffsets impl.recordBuffer x type count offset = .ok (offsets, last))
    (hfield : impl.fieldOffsets[x]? = some all) (hdrop : all.drop z = offsets)
    (hx : x < impl.header.fieldCount.toNat) (hlast : last < 2 ^ 16) :
    ∃ needed, last = offset + count * impl.fixedWidth x type + needed ∧ ∀ state : MemberState,
        (∀ k < count, (info.fields[state.fieldIndex + k]?).map DB2FieldMeta.type = some type) →
        state.pool.bytes.length ≤ state.pool.size →
        Fills MemberState.pool state.pool needed
          (fun next => next.fieldIndex = state.fieldIndex + count)
          ((List.range' z count).foldlM (impl.produceString info locale recordData x) state) := by
  induction count generalizing z offset offsets with
  | zero =>
    cases h
    exact ⟨0, by omega, fun state _ hroom => Fills.ok hroom rfl rfl⟩
  | succ count ih =>
    obtain ⟨width, hwidth, h⟩ := exists_of_bind_ok h
    obtain ⟨⟨rest, last'⟩, hrest, h⟩ := exists_of_bind_ok h
    cases h
    have hsplit : (count + 1) * impl.fixedWidth x type =
        count * impl.fixedWidth x type + impl.fixedWidth x type := Nat.succ_mul ..
    have hoffset : all[z]? = some offset := by
      rw [← Nat.add_zero z, ← getElem?_drop, hdrop]
      rfl
    have htail : all.drop (z + 1) = rest := by
      rw [← drop_drop, hdrop]
      rfl
    obtain ⟨more, hmore, hloop⟩ := ih hrest htail
    obtain ⟨needed, hneeded⟩ : ∃ needed, width = impl.fixedWidth x type + needed := by
      rcases memberWidth_eq hwidth with ⟨_, _, heq⟩ | ⟨_, heq, length, _, hlength⟩
      · exact ⟨0, heq⟩
      · exact ⟨width, by omega⟩
    refine ⟨needed + more, by omega, fun state htypes hroom => ?_⟩
    have hfirst := htypes 0 (Nat.succ_pos _)
    obtain ⟨entry, hentry, rfl⟩ := Option.map_eq_some_iff.mp hfirst
    obtain ⟨needed', hneeded', hstring⟩ := produceString_fills locale
      recordData hentry hfield hoffset (by omega) hx hroom hwidth
    obtain rfl : needed' = needed := by omega
    refine hstring.bind fun next hnext hroom' => ?_
    have hthen := hloop next (fun k hk => ?_) hroom'
    · exact hthen.mono fun final hindex => by omega
    · rw [hnext, Nat.add_assoc, Nat.add_comm 1 k]
      exact htypes (k + 1) (Nat.succ_lt_succ hk)

theorem produceFields_fills (info : DB2FileLoadInfo) (locale recordData : Nat)
    {fields : List DB2MetaField} {offsets : List (List Nat)}
    (h : impl.fieldOffsetsFrom impl.recordBuffer fields x offset = .ok (offsets, last))
    (hdrop : impl.fieldOffsets.drop x = offsets)
    (hcount : x + fields.length ≤ impl.header.fieldCount.toNat) (hlast : last < 2 ^ 16) :
    ∃ needed, last = offset + impl.fixedSize fields x + needed ∧ ∀ state : MemberState,
        (info.fields.map DB2FieldMeta.type).drop state.fieldIndex =
          (fields.map fun field => List.replicate field.arraySize.toNat field.type).flatten →
        state.pool.bytes.length ≤ state.pool.size →
        Fills MemberState.pool state.pool needed (fun _ => True)
          (impl.produceFields info locale recordData fields x state) := by
  induction fields generalizing x offset offsets with
  | nil =>
    cases h
    exact ⟨0, rfl, fun state _ hroom => Fills.ok hroom rfl trivial⟩
  | cons entry fields ih =>
    obtain ⟨⟨elements, next⟩, helements, h⟩ := exists_of_bind_ok h
    obtain ⟨⟨rest, last'⟩, hrest, h⟩ := exists_of_bind_ok h
    cases h
    have hfield : impl.fieldOffsets[x]? = some elements := by
      rw [← Nat.add_zero x, ← getElem?_drop, hdrop]
      rfl
    have htail : impl.fieldOffsets.drop (x + 1) = rest := by
      rw [← drop_drop, hdrop]
      rfl
    rw [length_cons] at hcount
    obtain ⟨more, hmore, hloop⟩ := ih hrest htail (by omega)
    obtain ⟨needed, hneeded, harray⟩ := produceElements_fills info locale
      recordData helements hfield (drop_zero ..) (by omega)
      (by omega)
    refine ⟨needed + more, by rw [fixedSize]; omega, fun state htypes hroom => ?_⟩
    rw [map_cons, flatten_cons] at htypes
    rw [produceFields, range_eq_range']
    refine Fills.bind (harray state (fun k hk => ?_) hroom) fun after hafter hroom' => ?_
    · have hentry := congrArg (fun types => types[k]?) htypes
      rw [getElem?_drop, getElem?_map, getElem?_append_left (by rw [length_replicate]; exact hk),
        getElem?_replicate_of_lt hk] at hentry
      exact hentry
    · refine hloop after ?_ hroom'
      rw [hafter, ← drop_drop, htypes]
      exact drop_left' (length_replicate ..)

end Texts

section Records

variable {impl' : DB2FileLoaderSparseImpl} {info : DB2FileLoadInfo} {entry : DB2CatalogEntry}

def WithRecord (impl impl' : DB2FileLoaderSparseImpl) : Prop :=
  ∃ position recordBuffer fieldOffsets, recordBuffer.length = impl.recordBuffer.length ∧
    impl' = { impl with
      source := { impl.source with position }
      recordBuffer
      fieldOffsets }

theorem WithRecord.refl : WithRecord impl impl := ⟨_, _, _, rfl, rfl⟩

theorem WithRecord.trans {impl'' : DB2FileLoaderSparseImpl} (h : WithRecord impl impl')
    (h' : WithRecord impl' impl'') : WithRecord impl impl'' := by
  obtain ⟨_, _, _, hlength, rfl⟩ := h
  obtain ⟨position, recordBuffer, fieldOffsets, hlength', rfl⟩ := h'
  exact ⟨position, recordBuffer, fieldOffsets, hlength'.trans hlength, rfl⟩

theorem WithRecord.sections (h : WithRecord impl impl') : impl'.sections = impl.sections := by
  obtain ⟨_, _, _, _, rfl⟩ := h
  rfl

theorem WithRecord.catalog (h : WithRecord impl impl') : impl'.catalog = impl.catalog := by
  obtain ⟨_, _, _, _, rfl⟩ := h
  rfl

theorem WithRecord.elementOffsets (h : WithRecord impl impl') (count offset : Nat) :
    impl'.elementOffsets bytes field type count offset =
      impl.elementOffsets bytes field type count offset := by
  obtain ⟨_, _, _, _, rfl⟩ := h
  induction count generalizing offset with
  | zero => rfl
  | succ count ih =>
    rw [DB2FileLoaderSparseImpl.elementOffsets, DB2FileLoaderSparseImpl.elementOffsets]
    simp only [ih]
    rfl

theorem WithRecord.fieldOffsetsFrom (h : WithRecord impl impl') (entries : List DB2MetaField)
    (field offset : Nat) : impl'.fieldOffsetsFrom bytes entries field offset =
      impl.fieldOffsetsFrom bytes entries field offset := by
  induction entries generalizing field offset with
  | nil => rfl
  | cons entry entries ih =>
    rw [DB2FileLoaderSparseImpl.fieldOffsetsFrom, DB2FileLoaderSparseImpl.fieldOffsetsFrom,
      h.elementOffsets]
    simp only [ih]

theorem WithRecord.fixedSize (h : WithRecord impl impl') (entries : List DB2MetaField)
    (field : Nat) : impl'.fixedSize entries field = impl.fixedSize entries field := by
  obtain ⟨_, _, _, _, rfl⟩ := h
  induction entries generalizing field with
  | nil => rfl
  | cons entry entries ih =>
    rw [DB2FileLoaderSparseImpl.fixedSize, DB2FileLoaderSparseImpl.fixedSize, ih]
    rfl

/-- The file has a record where the entry says, and its members take as much as the entry says. -/
def DescribesRecord (impl : DB2FileLoaderSparseImpl) (info : DB2FileLoadInfo)
    (entry : DB2CatalogEntry) : Prop :=
  entry.recordSize ≠ 0 ∧ ∃ bytes offsets,
    load impl.source.content entry.fileOffset.toNat entry.recordSize.toNat = some bytes ∧
      impl.calculateAndStoreFieldOffsets info bytes = .ok (offsets, entry.recordSize.toNat)

theorem WithRecord.describesRecord (h : WithRecord impl impl')
    (hrecord : impl.DescribesRecord info entry) : impl'.DescribesRecord info entry := by
  obtain ⟨hsize, bytes, offsets, hload, hoffsets⟩ := hrecord
  refine ⟨hsize, bytes, offsets, ?_, ?_⟩
  · obtain ⟨_, _, _, _, rfl⟩ := h
    exact hload
  · unfold calculateAndStoreFieldOffsets at hoffsets ⊢
    rw [h.fieldOffsetsFrom]
    exact hoffsets

/-- `GetRawRecordData` of a record that the catalog describes. -/
theorem getRawRecordData_eq {y i : Nat} {sectionHeader : DB2SectionHeader}
    (hentry : impl.catalog[y]? = some entry) (hsection : impl.sections[i]? = some sectionHeader)
    (hknown : isKnownTactId sectionHeader.tactId) (hinfo : impl.loadInfo = some info)
    (hrecord : impl.DescribesRecord info entry)
    (hbuffer : entry.recordSize.toNat ≤ impl.recordBuffer.length) :
    ∃ impl', impl.getRawRecordData y i = .ok (some impl') ∧ WithRecord impl impl' ∧
      impl'.calculateAndStoreFieldOffsets info impl'.recordBuffer =
        .ok (impl'.fieldOffsets, entry.recordSize.toNat) := by
  obtain ⟨hsize, bytes, offsets, hload, hoffsets⟩ := hrecord
  have hlength := length_load hload
  have hpositive : entry.recordSize.toNat ≠ 0 := fun h => hsize (UInt16.toNat_inj.mp h)
  have hread : ({ impl.source with position := entry.fileOffset.toNat } : DB2FileSource).read
      entry.recordSize.toNat = some (bytes, { impl.source with
        position := entry.fileOffset.toNat + entry.recordSize.toNat }) := by
    unfold DB2FileSource.read
    rw [if_neg hpositive, hload]
    rfl
  have hstore : store impl.recordBuffer 0 bytes =
      some (bytes ++ impl.recordBuffer.drop bytes.length) := by
    rw [store_of_fits (by omega), Nat.zero_add]
    rfl
  have hrecordOffsets : impl.calculateAndStoreFieldOffsets info
      (bytes ++ impl.recordBuffer.drop bytes.length) = .ok (offsets, entry.recordSize.toNat) :=
    fieldOffsetsFrom_append _ hoffsets
  obtain ⟨impl', himpl⟩ : ∃ impl' : DB2FileLoaderSparseImpl, impl' = { impl with
    source := { impl.source with position := entry.fileOffset.toNat + entry.recordSize.toNat }
    recordBuffer := bytes ++ impl.recordBuffer.drop bytes.length
    fieldOffsets := offsets } := ⟨_, rfl⟩
  have hsame : WithRecord impl impl' := by
    refine ⟨_, _, _, ?_, himpl⟩
    rw [length_append, length_drop]
    omega
  refine ⟨impl', ?_, hsame, ?_⟩
  · unfold getRawRecordData
    rw [hentry]
    rw [element_eq hsection]
    change (if !isKnownTactId sectionHeader.tactId then _ else _) = _
    rw [hknown, if_neg (by decide), hread]
    dsimp only
    rw [hstore]
    rw [pointee_eq hinfo]
    change (impl.calculateAndStoreFieldOffsets info _ >>= _) = _
    rw [hrecordOffsets, himpl]
    rfl
  · unfold calculateAndStoreFieldOffsets at hrecordOffsets ⊢
    rw [hsame.fieldOffsetsFrom, himpl]
    exact hrecordOffsets

end Records

section Runs

variable {impl' : DB2FileLoaderSparseImpl} {info : DB2FileLoadInfo} {entry : DB2CatalogEntry}
  {indexTable : List (Option Nat)}

/-- A load info whose members are those of the description and all in the file. -/
structure ListsFields (impl : DB2FileLoaderSparseImpl) (info : DB2FileLoadInfo) : Prop where
  loadInfo : impl.loadInfo = some info
  fieldCount : info.description.fields.length = info.description.fieldCount.toNat
  fileFieldCount : info.description.fileFieldCount = info.description.fieldCount
  headerCount : info.description.fieldCount = impl.header.fieldCount
  types : info.fields.map DB2FieldMeta.type =
    (if info.description.hasIndexFieldInData then [] else [.int]) ++
      (info.description.fields.map fun field =>
        List.replicate field.arraySize.toNat field.type).flatten

/-- A record with its entry, its id and its place in the data table. -/
def DescribesAt (impl : DB2FileLoaderSparseImpl) (info : DB2FileLoadInfo)
    (indexTable : List (Option Nat)) (y : Nat) (entry : DB2CatalogEntry) : Prop :=
  impl.catalog[y]? = some entry ∧ impl.DescribesRecord info entry ∧
    ∃ id pointer, impl.catalogIds[y]? = some id ∧ indexTable[id.toNat]? = some (some pointer)

variable {y : Nat}

theorem WithRecord.describesAt (h : WithRecord impl impl')
    (hrecord : impl.DescribesAt info indexTable y entry) :
    impl'.DescribesAt info indexTable y entry := by
  obtain ⟨hentry, hdescribes, hindex⟩ := hrecord
  have hdescribes' := h.describesRecord hdescribes
  obtain ⟨_, _, _, _, rfl⟩ := h
  exact ⟨hentry, hdescribes', hindex⟩

theorem WithRecord.listsFields (h : WithRecord impl impl') (hfields : impl.ListsFields info) :
    impl'.ListsFields info := by
  obtain ⟨_, _, _, _, rfl⟩ := h
  exact ⟨hfields.loadInfo, hfields.fieldCount, hfields.fileFieldCount, hfields.headerCount,
    hfields.types⟩

def BuffersRecords (impl : DB2FileLoaderSparseImpl) : Prop :=
  ∀ entry ∈ impl.catalog, entry.recordSize.toNat ≤ impl.recordBuffer.length

theorem WithRecord.buffersRecords (h : WithRecord impl impl') (hbuffer : impl.BuffersRecords) :
    impl'.BuffersRecords := by
  obtain ⟨_, _, _, hlength, rfl⟩ := h
  exact fun entry hentry => hlength ▸ hbuffer entry hentry

def textSizes (fixed : Nat) (entries : List DB2CatalogEntry) : Nat :=
  (entries.map fun entry => entry.recordSize.toNat - fixed).sum

theorem textSizes_append (fixed : Nat) (entries entries' : List DB2CatalogEntry) :
    textSizes fixed (entries ++ entries') = textSizes fixed entries + textSizes fixed entries' := by
  unfold textSizes
  rw [map_append, sum_append]

variable {i : Nat} {sectionHeader : DB2SectionHeader}

theorem produceRecord_fills (locale : Nat) {pool : StringPool} (hfields : impl.ListsFields info)
    (hsection : impl.sections[i]? = some sectionHeader)
    (hknown : isKnownTactId sectionHeader.tactId) (hbuffer : impl.BuffersRecords)
    (hrecord : impl.DescribesAt info indexTable y entry) (hroom : pool.bytes.length ≤ pool.size) :
    impl.fixedSize info.description.fields 0 ≤ entry.recordSize.toNat ∧
      Fills Prod.snd pool (entry.recordSize.toNat - impl.fixedSize info.description.fields 0)
        (fun next => WithRecord impl next.1)
        (produceRecord info locale i indexTable (impl, pool) y) := by
  obtain ⟨hentry, hdescribes, id, pointer, hid, hpointer⟩ := hrecord
  obtain ⟨impl', hraw, hsame, hoffsets⟩ := getRawRecordData_eq hentry hsection hknown
    hfields.loadInfo hdescribes (hbuffer entry (mem_of_getElem? hentry))
  have hfields' := hsame.listsFields hfields
  have hall := take_of_length_le (Nat.le_of_eq hfields.fieldCount)
  have hcount : 0 + info.description.fields.length ≤ impl'.header.fieldCount.toNat := by
    rw [hfields.fieldCount, hfields'.headerCount, Nat.zero_add]
  unfold calculateAndStoreFieldOffsets at hoffsets
  rw [hall] at hoffsets
  obtain ⟨needed, hneeded, hloop⟩ := produceFields_fills info locale pointer hoffsets
    (drop_zero ..) hcount entry.recordSize.toNat_lt
  rw [hsame.fixedSize, Nat.zero_add] at hneeded
  refine ⟨by omega, ?_⟩
  rw [hneeded, Nat.add_sub_cancel_left]
  have hid' : impl'.catalogIds = impl.catalogIds := by
    obtain ⟨_, _, _, _, rfl⟩ := hsame
    rfl
  have htake : info.description.fields.take impl'.header.fieldCount.toNat =
      info.description.fields := by
    rw [← hfields'.headerCount, hall]
  have hrun : produceRecord info locale i indexTable (impl, pool) y =
      impl'.produceFields info locale pointer info.description.fields 0
        (if info.description.hasIndexFieldInData then ⟨pool, 0, 0⟩ else ⟨pool, 4, 1⟩) >>=
      fun state => .ok (impl', state.pool) := by
    unfold produceRecord
    dsimp only
    rw [hraw]
    change (element impl'.catalogIds y >>= _) = _
    rw [hid', element_eq hid]
    dsimp only [bind, Except.bind]
    rw [hpointer, htake]
    rfl
  rw [hrun]
  have htypes := hfields.types
  cases hindex : info.description.hasIndexFieldInData with
  | true =>
    rw [hindex] at htypes
    exact Fills.map (hloop ⟨pool, 0, 0⟩ htypes hroom) (fun _ => rfl) fun _ _ => hsame
  | false =>
    rw [hindex] at htypes
    refine Fills.map (hloop ⟨pool, 4, 1⟩ ?_ hroom) (fun _ => rfl) fun _ _ => hsame
    rw [htypes]
    rfl

theorem produceRecords_fills (locale : Nat) {count : Nat} {pool : StringPool}
    (hfields : impl.ListsFields info) (hsection : impl.sections[i]? = some sectionHeader)
    (hknown : isKnownTactId sectionHeader.tactId) (hbuffer : impl.BuffersRecords)
    (hrecords : ∀ k < count, ∃ entry, impl.DescribesAt info indexTable (y + k) entry)
    (hroom : pool.bytes.length ≤ pool.size) :
    Fills Prod.snd pool (textSizes (impl.fixedSize info.description.fields 0)
        ((impl.catalog.drop y).take count))
      (fun next => WithRecord impl next.1)
      ((List.range' y count).foldlM (produceRecord info locale i indexTable) (impl, pool)) := by
  induction count generalizing impl y pool with
  | zero => exact Fills.ok hroom rfl WithRecord.refl
  | succ count ih =>
    obtain ⟨entry, hrecord⟩ := hrecords 0 (Nat.succ_pos _)
    have hentry : impl.catalog[y]? = some entry := hrecord.1
    obtain ⟨hlt, hget⟩ := List.getElem?_eq_some_iff.mp hentry
    rw [drop_eq_getElem_cons hlt, hget, take_succ_cons, textSizes, map_cons,
      sum_cons, ← textSizes, range'_succ, foldlM_cons]
    obtain ⟨_, hfirst⟩ := produceRecord_fills locale hfields hsection hknown hbuffer hrecord hroom
    refine hfirst.bind fun ⟨impl', pool'⟩ hsame hroom' => ?_
    have hsection' : impl'.sections[i]? = some sectionHeader := by
      rw [hsame.sections]
      exact hsection
    have hrecords' : ∀ k < count, ∃ entry, impl'.DescribesAt info indexTable (y + 1 + k) entry := by
      intro k hk
      obtain ⟨entry, hnext⟩ := hrecords (k + 1) (Nat.succ_lt_succ hk)
      rw [Nat.add_assoc, Nat.add_comm 1 k]
      exact ⟨entry, hsame.describesAt hnext⟩
    have hthen := ih (hsame.listsFields hfields) hsection' (hsame.buffersRecords hbuffer) hrecords'
      hroom'
    rw [hsame.fixedSize, hsame.catalog] at hthen
    exact hthen.mono fun next hnext => hsame.trans hnext

def loadedEntries : List DB2SectionHeader → List DB2CatalogEntry → List DB2CatalogEntry
  | [], _ => []
  | sectionHeader :: sections, entries =>
    let count := sectionHeader.catalogDataCount.toNat
    (if isKnownTactId sectionHeader.tactId then entries.take count else []) ++
      loadedEntries sections (entries.drop count)

/-- From record `y` on every loaded section has its records where its entries say, and every
skipped one has as many records as entries. -/
def DescribesSections (impl : DB2FileLoaderSparseImpl) (info : DB2FileLoadInfo)
    (indexTable : List (Option Nat)) : List DB2SectionHeader → Nat → Prop
  | [], _ => True
  | sectionHeader :: sections, y =>
    (if isKnownTactId sectionHeader.tactId then
      ∀ k < sectionHeader.catalogDataCount.toNat,
        ∃ entry, impl.DescribesAt info indexTable (y + k) entry
    else sectionHeader.recordCount = sectionHeader.catalogDataCount) ∧
      DescribesSections impl info indexTable sections (y + sectionHeader.catalogDataCount.toNat)

variable {sections : List DB2SectionHeader}

theorem WithRecord.describesSections (h : WithRecord impl impl')
    (hsections : impl.DescribesSections info indexTable sections y) :
    impl'.DescribesSections info indexTable sections y := by
  induction sections generalizing y with
  | nil => trivial
  | cons sectionHeader sections ih =>
    obtain ⟨hfirst, hothers⟩ := hsections
    refine ⟨?_, ih hothers⟩
    split at hfirst
    · rename_i hknown
      rw [if_pos hknown]
      intro k hk
      obtain ⟨entry, hrecord⟩ := hfirst k hk
      exact ⟨entry, h.describesAt hrecord⟩
    · rename_i hknown
      rw [if_neg hknown]
      exact hfirst

theorem produceSections_fills (locale : Nat) {pool : StringPool} (hfields : impl.ListsFields info)
    (hbuffer : impl.BuffersRecords) (hsections : impl.sections.drop i = sections)
    (hdescribes : impl.DescribesSections info indexTable sections y)
    (hroom : pool.bytes.length ≤ pool.size) :
    Fills Prod.snd pool (textSizes (impl.fixedSize info.description.fields 0)
        (loadedEntries sections (impl.catalog.drop y)))
      (fun next => WithRecord impl next.1)
      (produceSections info locale indexTable sections i y (impl, pool)) := by
  induction sections generalizing impl i y pool with
  | nil => exact Fills.ok hroom rfl WithRecord.refl
  | cons sectionHeader sections ih =>
    obtain ⟨hfirst, hothers⟩ := hdescribes
    have hsection : impl.sections[i]? = some sectionHeader := by
      rw [← Nat.add_zero i, ← getElem?_drop, hsections]
      rfl
    have htail : impl.sections.drop (i + 1) = sections := by
      rw [← drop_drop, hsections]
      rfl
    rw [loadedEntries, produceSections, drop_drop]
    by_cases hknown : isKnownTactId sectionHeader.tactId = true
    · rw [if_pos hknown] at hfirst ⊢
      rw [if_pos hknown]
      have hrecords := produceRecords_fills locale hfields hsection hknown hbuffer hfirst hroom
      rw [textSizes_append]
      refine hrecords.bind fun ⟨impl', pool'⟩ hsame hroom' => ?_
      have hthen := ih (hsame.listsFields hfields) (hsame.buffersRecords hbuffer)
        (hsame.sections ▸ htail) (hsame.describesSections hothers) hroom'
      rw [hsame.fixedSize, hsame.catalog] at hthen
      exact hthen.mono fun next hnext => hsame.trans hnext
    · rw [if_neg hknown] at hfirst ⊢
      rw [if_neg hknown, hfirst]
      exact ih hfields hbuffer htail hothers hroom

end Runs

end DB2FileLoaderSparseImpl

end LegionServer.Source.DataStores
