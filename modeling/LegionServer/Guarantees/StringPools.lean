import LegionServer.Source.DataStores.SparseEffects

/-!
# The string pool of a sparse table

`AutoProduceStrings` takes the size of its pool from the size of all loaded records and
what the members of all records take in memory.
-/
namespace LegionServer.Guarantees.StringPools
open Library Source.DataStores DB2FileLoaderSparseImpl List UInt32

section Loading

variable {impl impl' : DB2FileLoaderSparseImpl} {n i : Nat}

def entrySizes (entries : List DB2CatalogEntry) : Nat :=
  (entries.map fun entry => entry.recordSize.toNat).sum

def entryCount (sections : List DB2SectionHeader) : Nat :=
  (sections.map fun sectionHeader => sectionHeader.catalogDataCount.toNat).sum

structure Fresh (impl : DB2FileLoaderSparseImpl) : Prop where
  sections : impl.sections.length = impl.header.sectionCount.toNat
  catalog : impl.catalog = []
  total : impl.totalRecordSize = 0

/-- What the loop of `Load` keeps after `i` of `n` sections. -/
structure Loaded (impl : DB2FileLoaderSparseImpl) (n i : Nat) : Prop where
  header : impl.header.sectionCount.toNat = n
  sections : impl.sections.length = n
  count : impl.catalog.length = entryCount (impl.sections.take i)
  total : impl.totalRecordSize = entrySizes (loadedEntries (impl.sections.take i) impl.catalog)
  largest : ∀ entry ∈ impl.catalog, entry.recordSize ≤ impl.maxRecordSize

variable {sectionHeader : DB2SectionHeader}

theorem loadedEntries_append {sections : List DB2SectionHeader}
    {entries new : List DB2CatalogEntry} (hcount : entries.length = entryCount sections)
    (hnew : new.length = sectionHeader.catalogDataCount.toNat) :
    loadedEntries (sections ++ [sectionHeader]) (entries ++ new) = loadedEntries sections entries ++
        if isKnownTactId sectionHeader.tactId then new else [] := by
  induction sections generalizing entries with
  | nil =>
    obtain rfl := length_eq_zero_iff.mp hcount
    rw [nil_append, nil_append, loadedEntries, loadedEntries, loadedEntries,
      append_nil, nil_append, take_of_length_le (Nat.le_of_eq hnew)]
  | cons first sections ih =>
    have hsum : entryCount (first :: sections) =
        first.catalogDataCount.toNat + entryCount sections := by
      unfold entryCount
      rw [map_cons, sum_cons]
    have hfirst : first.catalogDataCount.toNat ≤ entries.length := by omega
    rw [cons_append, loadedEntries, loadedEntries, take_append_of_le_length hfirst,
      drop_append_of_le_length hfirst, ih (by rw [length_drop]; omega), append_assoc]

theorem sizes_foldl (entries : List DB2CatalogEntry) (start : Nat) :
    entries.foldl (fun total entry => total + entry.recordSize.toNat) start =
      start + entrySizes entries := by
  induction entries generalizing start with
  | nil => rfl
  | cons entry entries ih =>
    rw [foldl_cons, ih, entrySizes, entrySizes, map_cons, sum_cons, Nat.add_assoc]

theorem le_max (a b : UInt16) : a ≤ max a b ∧ b ≤ max a b := by
  change a ≤ (if a ≤ b then b else a) ∧ b ≤ (if a ≤ b then b else a)
  split
  · rename_i h
    exact ⟨h, UInt16.le_refl b⟩
  · rename_i h
    exact ⟨UInt16.le_refl a, UInt16.le_of_lt (UInt16.not_le.mp h)⟩

theorem largest_foldl (entries : List DB2CatalogEntry) (start : UInt16) :
    start ≤ entries.foldl (fun largest entry => max largest entry.recordSize) start ∧
      ∀ entry ∈ entries, entry.recordSize ≤
        entries.foldl (fun largest entry => max largest entry.recordSize) start := by
  induction entries generalizing start with
  | nil => exact ⟨UInt16.le_refl _, fun entry h => absurd h not_mem_nil⟩
  | cons entry entries ih =>
    obtain ⟨hstart, hentries⟩ := ih (max start entry.recordSize)
    have hmax := le_max start entry.recordSize
    refine ⟨UInt16.le_trans hmax.1 hstart, fun other hother => ?_⟩
    rcases mem_cons.mp hother with rfl | hother
    · exact UInt16.le_trans hmax.2 hstart
    · exact hentries other hother

/-- `loadCatalogData` adds the entries of the section and their sizes. -/
theorem loadCatalogData_eq (h : impl.loadCatalogData sectionHeader = .ok (some impl')) :
    ∃ new : List DB2CatalogEntry, new.length = sectionHeader.catalogDataCount.toNat ∧
      impl'.header = impl.header ∧ impl'.sections = impl.sections ∧
      impl'.catalog = impl.catalog ++ new ∧
      impl'.totalRecordSize = impl.totalRecordSize + entrySizes new ∧
      impl.maxRecordSize ≤ impl'.maxRecordSize ∧
      ∀ entry ∈ new, entry.recordSize ≤ impl'.maxRecordSize := by
  unfold loadCatalogData at h
  dsimp only at h
  split at h
  · cases h
  split at h
  · cases h
  split at h
  · cases h
  rename_i bytes source _
  cases h
  have hlargest := largest_foldl (Layout.catalogEntry.readAll
    sectionHeader.catalogDataCount.toNat bytes) impl.maxRecordSize
  exact ⟨_, Layout.catalogEntry.length_readAll _ _, rfl, rfl, rfl, sizes_foldl _ _,
    hlargest.1, hlargest.2⟩

theorem Loaded.add {new : List DB2CatalogEntry} (h : Loaded impl n i) (hi : i < n)
    (hnew : new.length = sectionHeader.catalogDataCount.toNat)
    (hheader : impl'.header = impl.header)
    (hsections : impl'.sections = impl.sections.set i sectionHeader)
    (hcatalog : impl'.catalog = impl.catalog ++ new)
    (htotal : impl'.totalRecordSize = impl.totalRecordSize +
      entrySizes (if isKnownTactId sectionHeader.tactId then new else []))
    (hmax : impl.maxRecordSize ≤ impl'.maxRecordSize)
    (hlargest : ∀ entry ∈ new, entry.recordSize ≤ impl'.maxRecordSize) :
    Loaded impl' n (i + 1) := by
  have hlt : i < (impl.sections.set i sectionHeader).length := by
    rw [length_set, h.sections]
    exact hi
  have htake : impl'.sections.take (i + 1) = impl.sections.take i ++ [sectionHeader] := by
    rw [hsections, take_add_one, take_set_of_le (Nat.le_refl i),
      getElem?_eq_getElem hlt, getElem_set_self]
    rfl
  refine ⟨?_, ?_, ?_, ?_, fun entry hentry => ?_⟩
  · rw [hheader, h.header]
  · rw [hsections, length_set, h.sections]
  · rw [hcatalog, htake, length_append, h.count, hnew]
    unfold entryCount
    simp
  · rw [htotal, htake, hcatalog, loadedEntries_append h.count hnew, h.total]
    unfold entrySizes
    rw [map_append, sum_append]
  · rw [hcatalog] at hentry
    rcases mem_append.mp hentry with hold | hnew
    · exact UInt16.le_trans (h.largest entry hold) hmax
    · exact hlargest entry hnew

theorem Loaded.process (h : Loaded impl n i) (hi : i < n)
    (hknown : isKnownTactId sectionHeader.tactId = true)
    (hload : ({ impl with sections := impl.sections.set i sectionHeader } :
      DB2FileLoaderSparseImpl).loadCatalogData sectionHeader = .ok (some impl')) :
    Loaded impl' n (i + 1) := by
  obtain ⟨new, hnew, hheader, hsections, hcatalog, htotal, hmax, hlargest⟩ :=
    loadCatalogData_eq hload
  refine h.add hi hnew hheader hsections hcatalog ?_ hmax hlargest
  rw [if_pos hknown]
  exact htotal

/-- The body of the loop of `Load`. -/
theorem Loaded.loadSection (h : Loaded impl n i) (hi : i < n)
    (hload : impl.loadSection i = .ok impl') : Loaded impl' n (i + 1) := by
  obtain ⟨sectionHeader, hsection, hload⟩ := exists_of_bind_ok hload
  have hsame : impl.sections.set i sectionHeader = impl.sections := by
    unfold element at hsection
    split at hsection
    · rename_i header hget
      cases hsection
      obtain ⟨hlt, hheader⟩ := List.getElem?_eq_some_iff.mp hget
      rw [← hheader]
      exact set_getElem_self hlt
    · cases hsection
  split at hload
  · rename_i hknown
    obtain ⟨loaded, hcatalog, hload⟩ := exists_of_bind_ok hload
    cases loaded with
    | none => cases hload
    | some loaded =>
      cases hload
      refine h.process hi hknown ?_
      rw [hsame]
      exact hcatalog
  · rename_i hunknown
    split at hload
    · cases hload
      refine h.add hi (length_replicate ..) rfl hsame.symm rfl ?_ (UInt16.le_refl _) ?_
      · rw [if_neg hunknown]
        rfl
      · intro entry hentry
        rw [eq_of_mem_replicate hentry]
        exact UInt16.zero_le
    · obtain ⟨loaded, hcatalog, hload⟩ := exists_of_bind_ok hload
      cases loaded with
      | none => cases hload
      | some loaded =>
        cases hload
        -- the entry that is processed is the one before its id was replaced
        exact h.process hi rfl hcatalog

/-- The loop of `Load`. -/
theorem Loaded.foldlM (count : Nat) (h : Loaded impl n i) (hcount : i + count = n)
    (hload : (List.range' i count).foldlM DB2FileLoaderSparseImpl.loadSection impl = .ok impl') :
    Loaded impl' n n := by
  induction count generalizing impl i with
  | zero =>
    cases hload
    obtain rfl : i = n := hcount
    exact h
  | succ count ih =>
    obtain ⟨next, hstep, hload⟩ := exists_of_bind_ok hload
    exact ih (h.loadSection (by omega) hstep) (by omega) hload

theorem loadSections_eq (h : Fresh impl) (hload : impl.loadSections = .ok impl') :
    impl'.totalRecordSize = entrySizes (loadedEntries impl'.sections impl'.catalog) ∧
      impl'.sections.length = impl'.header.sectionCount.toNat ∧ impl'.BuffersRecords := by
  obtain ⟨loaded, hrun, hload⟩ := exists_of_bind_ok hload
  cases hload
  have hstart : Loaded impl impl.header.sectionCount.toNat 0 := by
    refine ⟨rfl, h.sections, ?_, ?_, fun entry hentry => ?_⟩
    · rw [h.catalog]
      rfl
    · rw [h.total, h.catalog]
      rfl
    · rw [h.catalog] at hentry
      cases hentry
  rw [range_eq_range'] at hrun
  have hloaded := hstart.foldlM _ (Nat.zero_add _) hrun
  have hall := take_of_length_le (Nat.le_of_eq hloaded.sections)
  have htotal := hloaded.total
  rw [hall] at htotal
  refine ⟨htotal, hloaded.sections.trans hloaded.header.symm, fun entry hentry => ?_⟩
  rw [length_replicate]
  exact UInt16.le_iff_toNat_le.mp (hloaded.largest entry hentry)

end Loading

section Sizes

variable {impl : DB2FileLoaderSparseImpl} {info : DB2FileLoadInfo}

/-- What a member takes in memory, without strings. -/
def memoryWidth : DBCFormer → Nat
  | .string | .stringNotLocalized => 0
  | .byte => 1
  | .short => 2
  | .float | .int => 4
  | .long => 8

/-- What the members of a record other than the strings take in memory. -/
def memorySize (fields : List DB2MetaField) : Nat :=
  (fields.map fun field => field.arraySize.toNat * memoryWidth field.type).sum

theorem sum_sizes (types : List DBCFormer) : (types.map DBCFormer.size).sum =
    (types.map memoryWidth).sum + types.count .stringNotLocalized * 8 +
      types.count .string * (12 * 8) := by
  induction types with
  | nil => rfl
  | cons type types ih =>
    cases type <;> simp [DBCFormer.size, memoryWidth] <;> omega

theorem sum_replicated (fields : List DB2MetaField) (width : DBCFormer → Nat) :
    ((fields.map fun field => List.replicate field.arraySize.toNat field.type).flatten.map
      width).sum = (fields.map fun field => field.arraySize.toNat * width field.type).sum := by
  induction fields with
  | nil => rfl
  | cons field fields ih =>
    rw [map_cons, flatten_cons, map_append, sum_append, ih, map_replicate,
      sum_replicate_nat, map_cons, sum_cons]

/-- `GetRecordSize` of a record that is all in the file, without the id in front. -/
theorem fieldsSize_eq (h : impl.ListsFields info) :
    info.description.fieldsSize info.description.fieldCount.toNat =
      (info.description.fields.map fun field => field.arraySize.toNat * field.type.size).sum := by
  unfold DB2Meta.fieldsSize
  rw [take_of_length_le (Nat.le_of_eq h.fieldCount)]
  congr 1
  apply ext_getElem
  · rw [length_mapIdx, length_map]
  · intro i hi _
    rw [length_mapIdx, h.fieldCount, ← h.fileFieldCount] at hi
    rw [getElem_mapIdx, getElem_map, sum_replicate_nat]
    unfold DB2Meta.elementSize
    rw [if_neg (by omega)]

theorem getStringFieldCount_eq (info : DB2FileLoadInfo) :
    info.getStringFieldCount true = (info.fields.map DB2FieldMeta.type).count .string ∧
      info.getStringFieldCount false = (info.fields.map DB2FieldMeta.type).count .string +
        (info.fields.map DB2FieldMeta.type).count .stringNotLocalized := by
  unfold DB2FileLoadInfo.getStringFieldCount
  induction info.fields with
  | nil => exact ⟨rfl, rfl⟩
  | cons field fields ih =>
    obtain ⟨isSigned, type, name⟩ := field
    rw [countP_cons, countP_cons, map_cons, count_cons, count_cons, ih.1, ih.2]
    cases type <;> simp <;> omega

theorem getRecordSize_eq (h : impl.ListsFields info) :
    info.description.getRecordSize = memorySize info.description.fields +
      (info.getStringFieldCount false - info.getStringFieldCount true) * 8 +
      info.getStringFieldCount true * (12 * 8) +
        if info.description.hasIndexFieldInData then 0 else 4 := by
  obtain ⟨hlocalized, hall⟩ := getStringFieldCount_eq info
  have hcount (type : DBCFormer) (hint : type ≠ .int) :
      (info.fields.map DB2FieldMeta.type).count type = ((info.description.fields.map fun field =>
        List.replicate field.arraySize.toNat field.type).flatten).count type := by
    rw [h.types, count_append]
    split
    · rw [count_nil, Nat.zero_add]
    · rw [count_singleton, if_neg (by simpa using hint.symm), Nat.zero_add]
  unfold DB2Meta.getRecordSize
  rw [fieldsSize_eq h, ← sum_replicated, sum_sizes, sum_replicated, hall, hlocalized,
    Nat.add_sub_cancel_left, hcount _ (by decide), hcount _ (by decide)]
  rfl

/-- What `AutoProduceStrings` takes a record without its strings for. -/
theorem withoutStrings_eq (h : impl.ListsFields info)
    (hsize : info.description.getRecordSize < 2 ^ 32) :
    ((UInt32.ofNat info.description.getRecordSize -
        if info.description.hasIndexFieldInData then 0 else 4).toUInt64 -
      UInt64.ofNat ((info.getStringFieldCount false - info.getStringFieldCount true) * 8) -
      UInt64.ofNat (info.getStringFieldCount true * (12 * 8))).toNat =
      memorySize info.description.fields := by
  have heq := getRecordSize_eq h
  generalize info.description.getRecordSize = size at heq hsize ⊢
  generalize (info.getStringFieldCount false - info.getStringFieldCount true) * 8 = strings at heq ⊢
  generalize info.getStringFieldCount true * (12 * 8) = localized at heq ⊢
  have hword : (UInt32.ofNat size).toNat = size := toNat_ofNat_of_lt' hsize
  have hstrings : (UInt64.ofNat strings).toNat = strings :=
    UInt64.toNat_ofNat_of_lt' (show strings < 2 ^ 64 by omega)
  have hlocalized : (UInt64.ofNat localized).toNat = localized :=
    UInt64.toNat_ofNat_of_lt' (show localized < 2 ^ 64 by omega)
  have hrecord : (UInt32.ofNat size -
      if info.description.hasIndexFieldInData then 0 else 4).toUInt64.toNat =
        memorySize info.description.fields + strings + localized := by
    rw [toNat_toUInt64]
    split at heq
    · rename_i hindex
      rw [if_pos hindex, UInt32.sub_zero, hword]
      exact heq
    · rename_i hindex
      rw [if_neg hindex, UInt32.toNat_sub_of_le _ _ (UInt32.le_iff_toNat_le.mpr ?_), hword]
      · change size - 4 = _
        omega
      · rw [hword]
        change 4 ≤ size
        omega
  generalize (UInt32.ofNat size -
    if info.description.hasIndexFieldInData then 0 else 4).toUInt64 = record at hrecord ⊢
  have hrest : (record - UInt64.ofNat strings).toNat =
      memorySize info.description.fields + localized := by
    rw [UInt64.toNat_sub_of_le _ _ (UInt64.le_iff_toNat_le.mpr (by omega)), hrecord, hstrings]
    omega
  rw [UInt64.toNat_sub_of_le _ _ (UInt64.le_iff_toNat_le.mpr (by omega)), hrest, hlocalized,
    Nat.add_sub_cancel]

end Sizes

section Pools

variable {start impl : DB2FileLoaderSparseImpl} {info : DB2FileLoadInfo}
  {indexTable : List (Option Nat)} {locale : Nat}

theorem entrySizes_eq {fixed : Nat} {entries : List DB2CatalogEntry}
    (h : ∀ entry ∈ entries, fixed ≤ entry.recordSize.toNat) :
    entrySizes entries = textSizes fixed entries + entries.length * fixed := by
  induction entries with
  | nil => simp [entrySizes, textSizes]
  | cons entry entries ih =>
    have hentry := h entry mem_cons_self
    have hothers := ih fun other hother => h other (mem_cons_of_mem _ hother)
    unfold entrySizes textSizes at hothers ⊢
    rw [map_cons, sum_cons, hothers, map_cons, sum_cons, length_cons, Nat.succ_mul]
    omega

theorem length_loadedEntries_le (sections : List DB2SectionHeader)
    (entries : List DB2CatalogEntry) :
    (loadedEntries sections entries).length ≤ entries.length := by
  induction sections generalizing entries with
  | nil => exact Nat.zero_le _
  | cons sectionHeader sections ih =>
    have hrest := ih (entries.drop sectionHeader.catalogDataCount.toNat)
    rw [length_drop] at hrest
    rw [loadedEntries, length_append]
    split
    · rw [length_take]
      omega
    · rw [length_nil]
      omega

theorem entrySizes_le (entries : List DB2CatalogEntry) :
    entrySizes entries ≤ entries.length * 2 ^ 16 := by
  induction entries with
  | nil => exact Nat.zero_le _
  | cons entry entries ih =>
    have hentry := entry.recordSize.toNat_lt
    unfold entrySizes at ih ⊢
    rw [map_cons, sum_cons, length_cons, Nat.succ_mul]
    omega

theorem fixedSize_le_loaded {i y : Nat} {sections : List DB2SectionHeader}
    (hfields : impl.ListsFields info) (hbuffer : impl.BuffersRecords)
    (hsections : impl.sections.drop i = sections)
    (hdescribes : impl.DescribesSections info indexTable sections y) :
    ∀ entry ∈ loadedEntries sections (impl.catalog.drop y),
      impl.fixedSize info.description.fields 0 ≤ entry.recordSize.toNat := by
  induction sections generalizing i y with
  | nil => exact fun entry h => absurd h not_mem_nil
  | cons sectionHeader sections ih =>
    intro entry hentry
    obtain ⟨hfirst, hothers⟩ := hdescribes
    have hsection : impl.sections[i]? = some sectionHeader := by
      rw [← Nat.add_zero i, ← getElem?_drop, hsections]
      rfl
    have htail : impl.sections.drop (i + 1) = sections := by
      rw [← drop_drop, hsections]
      rfl
    rw [loadedEntries, drop_drop] at hentry
    rcases mem_append.mp hentry with hentry | hentry
    · split at hentry
      · rename_i hknown
        rw [if_pos hknown] at hfirst
        obtain ⟨k, hk⟩ := mem_iff_getElem?.mp hentry
        have hlt : k < sectionHeader.catalogDataCount.toNat := by
          have hlength := (List.getElem?_eq_some_iff.mp hk).1
          rw [length_take] at hlength
          omega
        obtain ⟨other, hrecord⟩ := hfirst k hlt
        rw [getElem?_take_of_lt hlt, getElem?_drop, hrecord.1] at hk
        cases hk
        have hempty : (StringPool.mk 0 [] []).bytes.length ≤ (StringPool.mk 0 [] []).size :=
          Nat.le_refl 0
        exact (produceRecord_fills 0 hfields hsection hknown hbuffer hrecord hempty).1
      · cases hentry
    · exact ih htail hothers entry hentry

/-- The size of the pool does not wrap, and the strings fit into it. -/
def PoolSuffices (impl : DB2FileLoaderSparseImpl) (info : DB2FileLoadInfo)
    (indexTable : List (Option Nat)) (locale : Nat) : Prop :=
  ((impl.stringTableSize info).toNat : Int) =
      impl.totalRecordSize - impl.catalog.length * memorySize info.description.fields ∧
    ∃ pool, impl.autoProduceStrings indexTable locale = .ok (some pool)

theorem toNat_stringTableSize (hfields : impl.ListsFields info)
    (hsize : info.description.getRecordSize < 2 ^ 32) (hcount : impl.catalog.length < 2 ^ 32)
    (htotal : impl.totalRecordSize < 2 ^ 64) :
    (impl.stringTableSize info).toNat =
      (2 ^ 64 - impl.catalog.length * memorySize info.description.fields + impl.totalRecordSize) %
        2 ^ 64 := by
  have hrecords : (UInt32.ofNat impl.catalog.length).toUInt64.toNat = impl.catalog.length := by
    exact toNat_ofNat_of_lt' hcount
  have hwithout := withoutStrings_eq hfields hsize
  have hsmall : memorySize info.description.fields < 2 ^ 32 := by
    have heq := getRecordSize_eq hfields
    omega
  have hproduct : impl.catalog.length * memorySize info.description.fields < 2 ^ 64 :=
    calc
      _ < 2 ^ 32 * 2 ^ 32 := Nat.mul_lt_mul'' hcount hsmall
      _ = 2 ^ 64 := by decide
  unfold stringTableSize
  rw [UInt64.toNat_sub, UInt64.toNat_mul, hrecords, hwithout, Nat.mod_eq_of_lt hproduct]
  congr 2
  exact UInt64.toNat_ofNat_of_lt' htotal

/-- The loops of `AutoProduceStrings` return if and only if the strings fit. -/
theorem autoProduceStrings_iff (hfields : impl.ListsFields info) (hbuffer : impl.BuffersRecords)
    (hsections : impl.sections.length = impl.header.sectionCount.toNat)
    (hdescribes : impl.DescribesSections info indexTable impl.sections 0)
    (hlocale : impl.header.locale.toNat.testBit locale = true)
    (hstrings : info.getStringFieldCount false ≠ 0) :
    (∃ pool, impl.autoProduceStrings indexTable locale = .ok (some pool)) ↔
      textSizes (impl.fixedSize info.description.fields 0)
        (loadedEntries impl.sections impl.catalog) ≤ (impl.stringTableSize info).toNat := by
  have hrun : impl.autoProduceStrings indexTable locale =
      (produceSections info locale indexTable impl.sections 0 0
        (impl, { size := (impl.stringTableSize info).toNat }) >>=
          fun state => .ok (some state.2)) := by
    unfold autoProduceStrings
    rw [pointee_eq hfields.loadInfo]
    change (if info.description.fieldCount ≠ impl.header.fieldCount then _ else _) = _
    rw [if_neg (not_not.mpr hfields.headerCount), hlocale, if_neg (by decide), if_neg hstrings,
      take_of_length_le (Nat.le_of_eq hsections)]
  have hempty : ({ size := (impl.stringTableSize info).toNat } : StringPool).bytes.length ≤
      ({ size := (impl.stringTableSize info).toNat } : StringPool).size := Nat.zero_le _
  have hfills := produceSections_fills locale hfields hbuffer (drop_zero ..) hdescribes hempty
  rw [hrun]
  cases hloop : produceSections info locale indexTable impl.sections 0 0
      (impl, { size := (impl.stringTableSize info).toNat }) with
  | ok state =>
    have hroom := (hfills.post_of_ok hloop).1
    rw [length_nil, Nat.zero_add] at hroom
    exact iff_of_true ⟨state.2, rfl⟩ hroom
  | error e =>
    have hroom := (hfills.may_of_error hloop).2
    rw [length_nil, Nat.zero_add] at hroom
    refine iff_of_false (fun ⟨pool, hpool⟩ => ?_) (Nat.not_le.mpr hroom)
    cases hpool

/-- The pool suffices if and only if the members other than strings of all records of the catalog
take no more in memory than those of the loaded records take in the file. -/
theorem string_pool_suffices_iff (hfresh : Fresh start) (hload : start.loadSections = .ok impl)
    (hfields : impl.ListsFields info) (hsize : info.description.getRecordSize < 2 ^ 32)
    (hcount : impl.catalog.length < 2 ^ 32)
    (hdescribes : impl.DescribesSections info indexTable impl.sections 0)
    (hlocale : impl.header.locale.toNat.testBit locale = true)
    (hstrings : info.getStringFieldCount false ≠ 0) :
    PoolSuffices impl info indexTable locale ↔
      impl.catalog.length * memorySize info.description.fields ≤
        (loadedEntries impl.sections impl.catalog).length *
          impl.fixedSize info.description.fields 0 := by
  obtain ⟨htotal, hsections, hbuffer⟩ := loadSections_eq hfresh hload
  have hfixed := fixedSize_le_loaded hfields hbuffer (drop_zero ..) hdescribes
  rw [drop_zero] at hfixed
  have hsmall : impl.totalRecordSize < 2 ^ 64 := by
    have hle := entrySizes_le (loadedEntries impl.sections impl.catalog)
    have hlength := length_loadedEntries_le impl.sections impl.catalog
    omega
  have hpool := toNat_stringTableSize hfields hsize hcount hsmall
  rw [entrySizes_eq hfixed] at htotal
  unfold PoolSuffices
  rw [autoProduceStrings_iff hfields hbuffer hsections hdescribes hlocale hstrings, hpool]
  omega

def numberedInfo : DB2FileLoadInfo where
  fields := [⟨false, .int, "ID"⟩, ⟨false, .int, "Number"⟩, ⟨false, .stringNotLocalized, "Name"⟩]
  description := {
    indexField := -1
    parentIndexField := -1
    fieldCount := 2
    fileFieldCount := 2
    fields := [⟨.int, 1, false⟩, ⟨.stringNotLocalized, 1, false⟩] }

def recordOffset (records : List (List UInt8)) (i : Nat) : Nat :=
  10 * records.length + (records.take i).flatten.length

def numberedFile (unusedBits : UInt16) (records : List (List UInt8)) : DB2FileLoaderSparseImpl where
  fileName := "Numbered.db2"
  loadInfo := some numberedInfo
  header := {
    recordCount := .ofNat records.length
    fieldCount := 2
    recordSize := 0
    stringTableSize := 0
    locale := 1
    flags := 1
    indexField := 0
    packedDataOffset := 0
    sectionCount := 1 }
  source := {
    fileName := "Numbered.db2"
    content := (range records.length).flatMap (fun i => [UInt8.ofNat (7 + i), 0, 0, 0]) ++
      records.zipIdx.flatMap (fun (record, i) =>
        [UInt8.ofNat (recordOffset records i), 0, 0, 0, .ofNat record.length, 0]) ++ records.flatten }
  sections := [⟨0, 0, .ofNat records.length, 0, 0, .ofNat records.length, 0⟩]
  fields := [⟨unusedBits, 0⟩, ⟨0, 0⟩]

def numberedTable (unusedBits : UInt16) (records : List (List UInt8)) : DB2FileLoaderSparseImpl :=
  let size := (records.map length).foldl max 0
  { numberedFile unusedBits records with
    source := { (numberedFile unusedBits records).source with position := 10 * records.length }
    totalRecordSize := records.flatten.length
    maxRecordSize := .ofNat size
    recordBuffer := replicate size 0
    catalogIds := (range records.length).map fun i => .ofNat (7 + i)
    catalog := records.zipIdx.map fun (record, i) =>
      ⟨.ofNat (recordOffset records i), .ofNat record.length⟩ }

/-- Two records, the second with the longer name -/
def names : List (List UInt8) := [[1, 0, 0, 0, 97, 0], [2, 0, 0, 0, 98, 99, 0]]

def numberedIndex : List (Option Nat) := replicate 7 none ++ [some 0, some 1]

theorem describes_numbered : (numberedTable 0 names).DescribesSections numberedInfo numberedIndex
    (numberedTable 0 names).sections 0 := by
  refine ⟨?_, trivial⟩
  intro k hk
  obtain rfl | rfl := Nat.le_one_iff_eq_zero_or_eq_one.mp (Nat.lt_succ_iff.mp hk)
  · exact ⟨⟨20, 6⟩, rfl, ⟨by decide, [1, 0, 0, 0, 97, 0], [[0], [4]], rfl, rfl⟩, 7, 0, rfl, rfl⟩
  · exact ⟨⟨26, 7⟩, rfl, ⟨by decide, [2, 0, 0, 0, 98, 99, 0], [[0], [4]], rfl, rfl⟩, 8, 1, rfl, rfl⟩

theorem string_pool_suffices_iff_numbered :
    PoolSuffices (numberedTable 0 names) numberedInfo numberedIndex 0 := by
  have hfresh : Fresh (numberedFile 0 names) := ⟨rfl, rfl, rfl⟩
  have hfields : (numberedTable 0 names).ListsFields numberedInfo := ⟨rfl, rfl, rfl, rfl, rfl⟩
  exact (string_pool_suffices_iff hfresh rfl hfields (by decide) (by decide) describes_numbered rfl
    (by decide)).mpr (by decide)

/-- The same number in 24 bits: the pool has one byte for the two of the name. -/
theorem string_pool_too_small :
    (numberedFile 8 [[1, 0, 0, 97, 0]]).loadSections = .ok (numberedTable 8 [[1, 0, 0, 97, 0]]) ∧
      (numberedTable 8 [[1, 0, 0, 97, 0]]).DescribesSections numberedInfo numberedIndex
        (numberedTable 8 [[1, 0, 0, 97, 0]]).sections 0 ∧
      ¬PoolSuffices (numberedTable 8 [[1, 0, 0, 97, 0]]) numberedInfo numberedIndex 0 := by
  refine ⟨rfl, ⟨?_, trivial⟩, fun ⟨_, pool, hpool⟩ => ?_⟩
  · intro k hk
    obtain rfl : k = 0 := Nat.lt_one_iff.mp hk
    exact ⟨⟨10, 5⟩, rfl, ⟨by decide, [1, 0, 0, 97, 0], [[0], [3]], rfl, rfl⟩, 7, 0, rfl, rfl⟩
  · have hoverrun : (numberedTable 8 [[1, 0, 0, 97, 0]]).autoProduceStrings numberedIndex 0 =
        .error .undefined := rfl
    cases hpool

end Pools

end LegionServer.Guarantees.StringPools
