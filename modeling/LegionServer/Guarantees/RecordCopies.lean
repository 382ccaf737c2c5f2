import LegionServer.Source.DataStores.CopyEffects

/-!
# Copies of records

A copy gets the next block of the data table, the bytes of its source, and its own id
where `idFieldOffset` says.
-/
namespace LegionServer.Guarantees.RecordCopies
open Library Source.DataStores List UInt32

/-- Every copy has a block of its own that is its source's but for the id, and nothing else
changed. -/
structure ExactCopies (start size idOffset : Nat) (made : List MadeCopy)
    (before after : List UInt8) : Prop where
  inside : ∀ m ∈ made, start ≤ m.block ∧ m.block + size ≤ after.length
  apart : made.Pairwise fun m m' => m.block + size ≤ m'.block ∨ m'.block + size ≤ m.block
  copied : ∀ m ∈ made, ∀ i < size, after[m.block + i]? =
    if idOffset ≤ i ∧ i < idOffset + 4 then (bytesOf 4 m.copy.newRowId.toNat)[i - idOffset]?
    else after[m.source + i]?
  frame : ∀ i, (∀ m ∈ made, i < m.block ∨ m.block + size ≤ i) → after[i]? = before[i]?

variable {recordsize idFieldOffset records offset : UInt32} {copies : List DB2RecordCopy}
  {copy : DB2RecordCopy} {table : ProducedTable} {indexTable : List (Option Nat)} {base size : Nat}

section Exactness

variable {made : List MadeCopy} {before after before' after' : List UInt8}
  {start idOffset recordCount : Nat}

/-- Two data tables that differ in members other than the ids only. -/
structure SameIds (size recordCount idOffset : Nat) (before before' : List UInt8) : Prop where
  length : before'.length = before.length
  ids : ∀ k < recordCount, ∀ i < 4,
    before'[k * size + idOffset + i]? = before[k * size + idOffset + i]?

theorem SameIds.refl : SameIds size recordCount idOffset before before :=
  ⟨rfl, fun _ _ _ _ => rfl⟩

theorem SameIds.set {i : Nat} (byte : UInt8)
    (h : ∀ k < recordCount, i < k * size + idOffset ∨ k * size + idOffset + 4 ≤ i) :
    SameIds size recordCount idOffset before (before.set i byte) := by
  refine ⟨length_set, fun k hk j hj => ?_⟩
  have hi := h k hk
  exact getElem?_set_ne (by omega)

/-- In a block, what lies before or after the id is not an id of another block. -/
theorem outside_ids {k q : Nat} (hq : q < size) (hid : idOffset + 4 ≤ size)
    (hout : q < idOffset ∨ idOffset + 4 ≤ q) :
    ∀ k' < recordCount, k * size + q < k' * size + idOffset ∨
      k' * size + idOffset + 4 ≤ k * size + q := by
  intro k' _
  rcases Nat.lt_trichotomy k k' with hlt | rfl | hgt
  · have hle : (k + 1) * size ≤ k' * size := Nat.mul_le_mul_right size hlt
    rw [Nat.succ_mul] at hle
    omega
  · omega
  · have hle : (k' + 1) * size ≤ k * size := Nat.mul_le_mul_right size hgt
    rw [Nat.succ_mul] at hle
    omega

/-- A byte that is not this one. -/
theorem exists_ne (byte : UInt8) : ∃ other : UInt8, other ≠ byte := by
  by_cases h : byte = 0
  · exact ⟨1, h ▸ by decide⟩
  · exact ⟨0, fun h' => h h'.symm⟩

theorem ExactCopies.of_copied (h : Copied size idOffset made before after)
    (hblocks : ∀ m ∈ made, start ≤ m.block ∧ m.block + size ≤ before.length)
    (hapart : made.Pairwise fun m m' => m.block + size ≤ m'.block)
    (hself : size = 4 ∧ idOffset = 0 ∨ ∀ m ∈ made, ¬m.OfItself) :
    ExactCopies start size idOffset made before after := by
  refine ⟨fun m hm => ?_, hapart.imp fun hle => .inl hle, fun m hm i hi => ?_, h.frame⟩
  · rw [h.length]
    exact hblocks m hm
  · rw [h.copied m hm i hi]
    rcases hself with ⟨rfl, rfl⟩ | hself
    · rw [if_pos (by omega), if_pos (by omega)]
    · rw [if_neg (hself m hm)]

/-- The table that `AutoProduceData` leaves, with room for the copies: the index points to blocks
of records, and 32-bit offsets reach all of it. -/
structure Produced (size recordCount : Nat) (copies : List DB2RecordCopy) (records : UInt32)
    (table : ProducedTable) : Prop where
  index : table.indexTable.length = records.toNat
  length : table.dataTable.length = (recordCount + copies.length) * size
  blocks : ∀ (id p : Nat), table.indexTable[id]? = some (some p) → ∃ k < recordCount, p = k * size
  addressable : (recordCount + copies.length) * size + 2 ^ 16 ≤ 2 ^ 32

/-- The copies are exact, and the index points to them. -/
def CopiesExactly (run : ProducedTable → Except DB2Failure ProducedTable)
    (start size idOffset : Nat) (made : List MadeCopy) (table : ProducedTable) : Prop :=
  ∃ result, run table = .ok result ∧ result.indexTable = made.foldl (fun indexTable m =>
      indexTable.set m.copy.newRowId.toNat (some m.block)) table.indexTable ∧
    ExactCopies start size idOffset made table.dataTable result.dataTable

theorem Produced.endsBefore (h : Produced size recordCount copies records table) :
    EndsBefore size (recordCount * size) table.indexTable := by
  intro id p hp
  obtain ⟨k, hk, rfl⟩ := h.blocks id p hp
  have hle : (k + 1) * size ≤ recordCount * size := Nat.mul_le_mul_right size hk
  rwa [Nat.succ_mul] at hle

/-- The first copy is one of a record, not of a copy. -/
theorem exists_first (h : Produced size recordCount copies records table) {base : Nat}
    {m : MadeCopy} {more : List MadeCopy}
    (hmade : madeCopies records size copies table.indexTable base = m :: more) :
    ∃ k < recordCount, m.source = k * size := by
  have hblocks := h.blocks
  clear h
  induction copies generalizing base with
  | nil => cases hmade
  | cons copy copies ih =>
    rw [madeCopies] at hmade
    split at hmade
    · exact ih hmade
    · rename_i source hsource
      cases hmade
      exact hblocks _ _ (copySource_eq_some hsource).1

end Exactness

section Layouts

variable {recordCount : UInt32} {idOffset : Nat}

theorem produceCopies_eq (table : ProducedTable) :
    produceCopies recordsize recordCount idFieldOffset records copies table =
      (copies.foldlM (produceCopy recordsize idFieldOffset records)
        (table, recordCount * recordsize)).map Prod.fst := by
  unfold produceCopies
  cases copies.foldlM (produceCopy recordsize idFieldOffset records)
      (table, recordCount * recordsize) with
  | ok result => rfl
  | error e => rfl

theorem produceCopies_index (table : ProducedTable) {result : ProducedTable × UInt32}
    (hoffset : offset.toNat = base)
    (haddress : base + copies.length * recordsize.toNat < 2 ^ 32)
    (hrun : copies.foldlM (produceCopy recordsize idFieldOffset records) (table, offset) =
      .ok result) :
    result.1.indexTable =
      (madeCopies records recordsize.toNat copies table.indexTable base).foldl (fun indexTable m =>
        indexTable.set m.copy.newRowId.toNat (some m.block)) table.indexTable := by
  induction copies generalizing table offset base with
  | nil =>
    cases hrun
    rfl
  | cons copy copies ih =>
    rw [length_cons, Nat.succ_mul] at haddress
    rw [foldlM_cons] at hrun
    cases hstep : produceCopy recordsize idFieldOffset records (table, offset) copy with
    | error e =>
      rw [hstep] at hrun
      cases hrun
    | ok next =>
      rw [hstep] at hrun
      rw [madeCopies]
      cases hsource : copySource records table.indexTable copy with
      | none =>
        rw [produceCopy_none hsource] at hstep
        cases hstep
        exact ih table hoffset (by omega) hrun
      | some source =>
        obtain ⟨hnext, hindex, _⟩ := produceCopy_wrote hsource hstep
        have hnextOffset : next.2.toNat = base + recordsize.toNat := by
          rw [hnext, UInt32.toNat_add, hoffset, Nat.mod_eq_of_lt (by omega)]
        rw [hoffset] at hindex
        rw [foldl_cons, ← hindex]
        exact ih next.1 hnextOffset (by omega) hrun

theorem produceCopies_exactly
    (h : Produced recordsize.toNat recordCount.toNat copies records table) {dataTable : List UInt8}
    (hlength : dataTable.length = table.dataTable.length)
    (hid : idFieldOffset.toNat + 4 ≤ recordsize.toNat) :
    ∃ result, produceCopies recordsize recordCount idFieldOffset records copies
        ⟨table.indexTable, dataTable⟩ = .ok result ∧
      result.indexTable = (madeCopies records recordsize.toNat copies table.indexTable
        (recordCount.toNat * recordsize.toNat)).foldl (fun indexTable m =>
          indexTable.set m.copy.newRowId.toNat (some m.block)) table.indexTable ∧
      Copied recordsize.toNat idFieldOffset.toNat (madeCopies records recordsize.toNat copies
        table.indexTable (recordCount.toNat * recordsize.toNat)) dataTable result.dataTable := by
  have htotal := h.addressable
  have hsize := h.length
  rw [Nat.add_mul] at htotal hsize
  have hstart : (recordCount * recordsize).toNat = recordCount.toNat * recordsize.toNat := by
    rw [UInt32.toNat_mul, Nat.mod_eq_of_lt (by omega)]
  have hroom : recordCount.toNat * recordsize.toNat + copies.length * recordsize.toNat ≤
      dataTable.length := by omega
  have haddress : dataTable.length < 2 ^ 32 := by omega
  obtain ⟨result, hrun, hcopied⟩ := produceCopies_copied ⟨table.indexTable, dataTable⟩
    hstart h.index h.endsBefore hid hroom haddress
  have hindex := produceCopies_index ⟨table.indexTable, dataTable⟩ hstart (by omega) hrun
  refine ⟨result.1, ?_, hindex, hcopied⟩
  rw [produceCopies_eq, hrun]
  rfl

/-- All copies of a table are exact, whatever the members other than the ids are. -/
def AlwaysExact (run : ProducedTable → Except DB2Failure ProducedTable)
    (recordCount size idOffset : Nat) (made : List MadeCopy) (table : ProducedTable) : Prop :=
  ∀ dataTable, SameIds size recordCount idOffset table.dataTable dataTable →
    CopiesExactly run (recordCount * size) size idOffset made ⟨table.indexTable, dataTable⟩

variable {made : List MadeCopy}

section
variable (h : Produced recordsize.toNat recordCount.toNat copies records table)
  (hmade : madeCopies records recordsize.toNat copies table.indexTable
    (recordCount.toNat * recordsize.toNat) = made)
include h hmade

theorem offset_of_exact_inside (hne : made ≠ []) (hid : idOffset + 4 ≤ recordsize.toNat)
    (hoffset : idFieldOffset.toNat + 4 ≤ recordsize.toNat)
    (hexact : AlwaysExact (produceCopies recordsize recordCount idFieldOffset records copies)
      recordCount.toNat recordsize.toNat idOffset made table) :
    idFieldOffset.toNat = idOffset := by
  by_contra hwrong
  obtain ⟨m, more, rfl⟩ := exists_cons_of_ne_nil hne
  obtain ⟨k, hk, hsource⟩ := exists_first h hmade
  have hlength := h.length
  -- a byte that is written and is not of the id member
  obtain ⟨q, hwritten, hother⟩ : ∃ q, (idFieldOffset.toNat ≤ q ∧ q < idFieldOffset.toNat + 4) ∧
      (q < idOffset ∨ idOffset + 4 ≤ q) := by
    rcases Nat.lt_or_gt_of_ne hwrong with hlt | hgt
    · exact ⟨idFieldOffset.toNat, by omega, .inl hlt⟩
    · exact ⟨idFieldOffset.toNat + 3, by omega, .inr (by omega)⟩
  have hq : q < recordsize.toNat := by omega
  obtain ⟨byte, hbyte⟩ : ∃ byte, (bytesOf 4 m.copy.newRowId.toNat)[q - idFieldOffset.toNat]? =
      some byte := ⟨_, getElem?_eq_getElem (by rw [length_bytesOf]; omega)⟩
  obtain ⟨other, hdiffers⟩ := exists_ne byte
  have hplace : k * recordsize.toNat + q < table.dataTable.length := by
    have hle : (k + 1) * recordsize.toNat ≤ recordCount.toNat * recordsize.toNat :=
      Nat.mul_le_mul_right _ hk
    rw [Nat.succ_mul] at hle
    rw [Nat.add_mul] at hlength
    omega
  have hsame : SameIds recordsize.toNat recordCount.toNat idOffset table.dataTable
      (table.dataTable.set (k * recordsize.toNat + q) other) :=
    SameIds.set other (outside_ids hq hid hother)
  obtain ⟨result, hrun, _, hcopies⟩ := hexact _ hsame
  obtain ⟨result', hrun', _, hcopied⟩ := produceCopies_exactly h hsame.length hoffset
  rw [hrun] at hrun'
  cases hrun'
  rw [hmade] at hcopied
  have hnew := hcopied.copied m mem_cons_self q hq
  rw [if_pos hwritten, hbyte, hcopies.copied m mem_cons_self q hq, if_neg (by omega),
    hsource] at hnew
  have hframe := hcopies.frame (k * recordsize.toNat + q) fun m' hm' => .inl (by
    have hinside := (hcopies.inside m' hm').1
    have hle : (k + 1) * recordsize.toNat ≤ recordCount.toNat * recordsize.toNat :=
      Nat.mul_le_mul_right _ hk
    rw [Nat.succ_mul] at hle
    omega)
  rw [hnew, getElem?_set_self hplace] at hframe
  exact hdiffers (Option.some.inj hframe).symm

/-- An id outside the record damages a copy. -/
theorem inside_of_exact (hne : made ≠ []) (hid : idOffset + 4 ≤ recordsize.toNat)
    (hoffset : idFieldOffset.toNat < 2 ^ 16)
    (hexact : AlwaysExact (produceCopies recordsize recordCount idFieldOffset records copies)
      recordCount.toNat recordsize.toNat idOffset made table) :
    idFieldOffset.toNat + 4 ≤ recordsize.toNat := by
  by_contra hbeyond
  have htotal := h.addressable
  rw [Nat.add_mul] at htotal
  have hstart : (recordCount * recordsize).toNat = recordCount.toNat * recordsize.toNat := by
    rw [UInt32.toNat_mul, Nat.mod_eq_of_lt (by omega)]
  obtain ⟨last, hlast⟩ : ∃ last, made.getLast? = some last :=
    ⟨_, getLast?_eq_getLast_of_ne_nil hne⟩
  obtain ⟨front, rfl⟩ := List.getLast?_eq_some_iff.mp hlast
  have hapart := madeCopies_apart records copies h.endsBefore
  rw [hmade] at hapart
  -- what the last copy writes beyond its block
  have hwritten (dataTable : List UInt8)
      (hsame : SameIds recordsize.toNat recordCount.toNat idOffset table.dataTable dataTable) :
      dataTable[last.block + idFieldOffset.toNat + 3]? =
        (bytesOf 4 last.copy.newRowId.toNat)[3]? := by
    obtain ⟨result, hrun, _, hcopies⟩ := hexact dataTable hsame
    rw [produceCopies_eq] at hrun
    cases hloop : copies.foldlM (produceCopy recordsize idFieldOffset records)
        (⟨table.indexTable, dataTable⟩, recordCount * recordsize) with
    | error e =>
      rw [hloop] at hrun
      cases hrun
    | ok final =>
      rw [hloop] at hrun
      cases hrun
      obtain ⟨last', hlast', hbytes⟩ := produceCopies_last ⟨table.indexTable, dataTable⟩ hstart
        h.endsBefore (by omega) hloop (by dsimp only; rw [hmade]; exact hne)
      rw [hmade, hlast] at hlast'
      cases hlast'
      rw [← hbytes 3 (by decide)]
      refine (hcopies.frame _ fun m hm => .inr ?_).symm
      rcases mem_append.mp hm with hm | hm
      · have hbefore := (pairwise_append.mp hapart).2.2 m hm last (mem_singleton_self _)
        omega
      · rw [mem_singleton.mp hm]
        omega
  have hblock := madeCopies_blocks records copies h.endsBefore last
    (by rw [hmade]; exact mem_append_right _ (mem_singleton_self _))
  obtain ⟨byte, hnew⟩ : ∃ byte, (bytesOf 4 last.copy.newRowId.toNat)[3]? = some byte :=
    ⟨_, getElem?_eq_getElem (by rw [length_bytesOf]; decide)⟩
  obtain ⟨other, hdiffers⟩ := exists_ne byte
  have hplace : last.block + idFieldOffset.toNat + 3 < table.dataTable.length := by
    have hbyte := hwritten table.dataTable SameIds.refl
    exact (List.getElem?_eq_some_iff.mp hbyte).1
  have hbyte := hwritten _ (SameIds.set other fun k hk => .inr (by
    have hle : (k + 1) * recordsize.toNat ≤ recordCount.toNat * recordsize.toNat :=
      Nat.mul_le_mul_right _ hk
    rw [Nat.succ_mul] at hle
    show k * recordsize.toNat + idOffset + 4 ≤ last.block + idFieldOffset.toNat + 3
    omega))
  rw [getElem?_set_self hplace, hnew] at hbyte
  exact hdiffers (Option.some.inj hbyte)

/-- A record that is made of itself is damaged. -/
theorem self_of_exact (hid : idFieldOffset.toNat + 4 ≤ recordsize.toNat)
    (hsize : recordsize.toNat ≠ 4)
    (hexact : AlwaysExact (produceCopies recordsize recordCount idFieldOffset records copies)
      recordCount.toNat recordsize.toNat idFieldOffset.toNat made table) :
    ∀ m ∈ made, ¬m.OfItself := by
  intro m hm hself
  have hblocks := madeCopies_blocks records copies h.endsBefore
  rw [hmade] at hblocks
  obtain ⟨hbase, hend, hsource⟩ := hblocks m hm
  have hlength := h.length
  rw [Nat.add_mul] at hlength
  obtain ⟨q, hq, hother⟩ : ∃ q < recordsize.toNat,
      q < idFieldOffset.toNat ∨ idFieldOffset.toNat + 4 ≤ q := by
    rcases Nat.eq_zero_or_pos idFieldOffset.toNat with hzero | hpos
    · exact ⟨4, by omega, by omega⟩
    · exact ⟨0, by omega, .inl hpos⟩
  have hplace : m.block + q < table.dataTable.length := by omega
  -- the byte before the run is the byte after it, in the copy and in its source
  have hkept (dataTable : List UInt8) (hsame : SameIds recordsize.toNat recordCount.toNat
      idFieldOffset.toNat table.dataTable dataTable) :
      ∃ result, Copied recordsize.toNat idFieldOffset.toNat made dataTable result ∧
        dataTable[m.block + q]? = result[m.source + q]? := by
    obtain ⟨result, hrun, _, hcopies⟩ := hexact dataTable hsame
    obtain ⟨result', hrun', _, hcopied⟩ := produceCopies_exactly h hsame.length hid
    rw [hrun] at hrun'
    cases hrun'
    rw [hmade] at hcopied
    refine ⟨result.dataTable, hcopied, ?_⟩
    have hold := hcopied.copied m hm q hq
    have hnew := hcopies.copied m hm q hq
    rw [if_neg (by omega), if_pos hself] at hold
    rw [if_neg (by omega)] at hnew
    exact hold.symm.trans hnew
  obtain ⟨byte, hbyte⟩ : ∃ byte, table.dataTable[m.block + q]? = some byte :=
    ⟨_, getElem?_eq_getElem hplace⟩
  obtain ⟨other, hdiffers⟩ := exists_ne byte
  obtain ⟨result, hcopied, hsame⟩ := hkept table.dataTable SameIds.refl
  obtain ⟨result', hcopied', hsame'⟩ := hkept _ (SameIds.set other fun k hk => .inr (by
    have hle : (k + 1) * recordsize.toNat ≤ recordCount.toNat * recordsize.toNat :=
      Nat.mul_le_mul_right _ hk
    rw [Nat.succ_mul] at hle
    show k * recordsize.toNat + idFieldOffset.toNat + 4 ≤ m.block + q
    omega))
  have hbefore : ∀ i < m.block + q,
      (table.dataTable.set (m.block + q) other)[i]? = table.dataTable[i]? :=
    fun i hi => getElem?_set_ne (by omega)
  have hagree := hcopied.agree hcopied' (fun m hm => (hblocks m hm).2.2) hbefore (m.source + q)
    (by omega)
  rw [getElem?_set_self hplace, hagree, ← hsame, hbyte] at hsame'
  exact hdiffers (Option.some.inj hsame')

/-- The copies are exact for all other members if and only if no copy is made, or the ids are
written where the id member is, and no row with other members is copied to itself. -/
theorem produceCopies_iff (hid : idOffset + 4 ≤ recordsize.toNat)
    (hoffset : idFieldOffset.toNat < 2 ^ 16 ∨ idFieldOffset.toNat + 4 ≤ recordsize.toNat) :
    AlwaysExact (produceCopies recordsize recordCount idFieldOffset records copies)
        recordCount.toNat recordsize.toNat idOffset made table ↔
      made = [] ∨ (idFieldOffset.toNat = idOffset ∧
        (recordsize.toNat = 4 ∨ ∀ m ∈ made, ¬m.OfItself)) := by
  constructor
  · intro hexact
    by_cases hne : made = []
    · exact .inl hne
    have hinside := hoffset.elim (inside_of_exact h hmade hne hid · hexact) id
    have hsame := offset_of_exact_inside h hmade hne hid hinside hexact
    refine .inr ⟨hsame, ?_⟩
    by_cases hsize : recordsize.toNat = 4
    · exact .inl hsize
    · rw [← hsame] at hexact
      exact .inr (self_of_exact h hmade hinside hsize hexact)
  · rintro (hnone | ⟨rfl, hself⟩) dataTable hsame
    · refine ⟨⟨table.indexTable, dataTable⟩, ?_, ?_, ?_⟩
      · have hrun := produceCopies_none recordsize idFieldOffset (recordCount * recordsize)
          ⟨table.indexTable, dataTable⟩ (hmade.trans hnone)
        rw [produceCopies_eq, hrun]
        rfl
      · rw [hnone]
        rfl
      · rw [hnone]
        exact ⟨fun m hm => absurd hm not_mem_nil, List.Pairwise.nil,
          fun m hm => absurd hm not_mem_nil, fun _ _ => rfl⟩
    · obtain ⟨result, hrun, hindex, hcopied⟩ := produceCopies_exactly h hsame.length hid
      rw [hmade] at hindex hcopied
      have hblocks := madeCopies_blocks records copies h.endsBefore
      have hapart := madeCopies_apart records copies h.endsBefore
      rw [hmade] at hblocks hapart
      have hlength := h.length
      rw [Nat.add_mul] at hlength
      refine ⟨result, hrun, hindex, ExactCopies.of_copied hcopied (fun m hm => ?_) hapart ?_⟩
      · have hblock := hblocks m hm
        have hsize := hsame.length
        change _ ∧ _ ≤ dataTable.length
        omega
      · exact hself.imp_left fun hsize => ⟨hsize, by omega⟩

end

end Layouts

section Descriptions

/-- The type that the load info lists for the elements of field `i`. -/
def listedType (description : DB2Meta) (i : Nat) (field : DB2MetaField) : DBCFormer :=
  if i ≥ description.fileFieldCount.toNat ∧ (i : Int) = description.parentIndexField.toInt then .int
  else field.type

/-- A load info that lists the members of the description, with an id in front where the file has
none, and an id of four bytes. -/
structure Described (info : DB2FileLoadInfo) : Prop where
  fieldCount : info.description.fields.length = info.description.fieldCount.toNat
  types : info.fields.map DB2FieldMeta.type =
    (if info.description.hasIndexFieldInData then [] else [.int]) ++
      (info.description.fields.mapIdx fun i field =>
        List.replicate field.arraySize.toNat (listedType info.description i field)).flatten
  index : info.description.hasIndexFieldInData →
    ∃ (i : Nat) (field : DB2MetaField), info.description.indexField.toInt = i ∧
      info.description.fields[i]? = some field ∧ field.type = .int ∧ 0 < field.arraySize.toNat

variable {info : DB2FileLoadInfo} {description : DB2Meta} {n : Nat}

theorem toNat_getIndexField {i : Nat} (h : description.indexField.toInt = i) :
    description.getIndexField.toNat = i := by
  unfold DB2Meta.getIndexField
  have hne : description.indexField ≠ -1 := by
    intro heq
    rw [heq] at h
    have hminus : (-1 : Int32).toInt = -1 := rfl
    omega
  have hnonneg : 0 ≤ description.indexField := by
    rw [Int32.le_iff_toInt_le, h]
    exact Int.natCast_nonneg i
  rw [if_neg hne, Int32.toNat_toUInt32_of_le hnonneg, Int32.toNatClampNeg, h, Int.toNat_natCast]

theorem size_listedType (description : DB2Meta) (i : Nat) (field : DB2MetaField) :
    (listedType description i field).size = description.elementSize i field := by
  unfold listedType DB2Meta.elementSize
  split <;> rfl

section
variable (fields : List DB2MetaField) (type : Nat → DB2MetaField → DBCFormer)

theorem length_listed :
    (fields.mapIdx fun i field =>
      List.replicate field.arraySize.toNat (type i field)).flatten.length = (fields.map fun field => field.arraySize.toNat).sum := by
  induction fields generalizing type with
  | nil => rfl
  | cons field fields ih =>
    rw [mapIdx_cons, flatten_cons, length_append, ih, length_replicate]
    rfl

theorem sum_listed :
    ((fields.mapIdx fun i field =>
      List.replicate field.arraySize.toNat (type i field)).flatten.map DBCFormer.size).sum =
      (fields.mapIdx fun i field =>
        (List.replicate field.arraySize.toNat (type i field).size).sum).sum := by
  induction fields generalizing type with
  | nil => rfl
  | cons field fields ih =>
    rw [mapIdx_cons, flatten_cons, map_append, sum_append, ih, map_replicate, mapIdx_cons, sum_cons]

end

theorem Described.producedOffset_eq (h : Described info) (field : Nat) :
    producedOffset info field = (if info.description.hasIndexFieldInData then 0 else 4) +
      info.description.fieldsSize field := by
  have hsum : producedOffset info field =
      (((info.fields.map DB2FieldMeta.type).take (info.getFieldIndexByMetaIndex field)).map
        DBCFormer.size).sum := by
    rw [← map_take, map_map]
    rfl
  have hlisted : (info.description.fields.mapIdx fun i field =>
      replicate field.arraySize.toNat (listedType info.description i field)).flatten.take
        ((info.description.fields.take field).map fun field => field.arraySize.toNat).sum =
      ((info.description.fields.take field).mapIdx fun i field =>
        replicate field.arraySize.toNat (listedType info.description i field)).flatten := by
    conv_lhs => rw [← take_append_drop field info.description.fields]
    rw [mapIdx_append, flatten_append]
    refine take_left' ?_
    rw [length_listed, take_append_drop]
  have hsize : info.description.fieldsSize field =
      (((info.description.fields.take field).mapIdx fun i field => replicate
        field.arraySize.toNat (listedType info.description i field)).flatten.map
          DBCFormer.size).sum := by
    rw [sum_listed]
    simp only [size_listedType]
    rfl
  rw [hsum, h.types, hsize, ← hlisted]
  unfold DB2FileLoadInfo.getFieldIndexByMetaIndex
  cases info.description.hasIndexFieldInData with
  | true =>
    simp
  | false =>
    simp [DBCFormer.size, Nat.add_comm 1]

theorem fieldsSize_add_le {i : Nat} {field : DB2MetaField}
    (h : description.fields[i]? = some field) (hsize : 0 < field.arraySize.toNat)
    (hcount : description.fields.length ≤ n) :
    description.fieldsSize i + description.elementSize i field ≤ description.fieldsSize n := by
  obtain ⟨hlt, rfl⟩ := List.getElem?_eq_some_iff.mp h
  have hlength : (description.fields.take i).length = i := length_take_of_le hlt.le
  have hsplit : description.fieldsSize n = description.fieldsSize i +
      ((description.fields.drop i).mapIdx fun j field => (replicate field.arraySize.toNat
        (description.elementSize (j + i) field)).sum).sum := by
    unfold DB2Meta.fieldsSize
    rw [take_of_length_le hcount]
    conv_lhs => rw [← take_append_drop i description.fields]
    rw [mapIdx_append, sum_append, hlength]
  rw [hsplit, drop_eq_getElem_cons hlt, mapIdx_cons, sum_cons, Nat.zero_add, sum_replicate_nat]
  have hone := Nat.mul_le_mul_right (description.elementSize i description.fields[i]) hsize
  omega

theorem Described.index_inside (h : Described info) :
    producedIdOffset info + 4 ≤ info.description.getRecordSize := by
  unfold producedIdOffset DB2Meta.getRecordSize
  cases hindex : info.description.hasIndexFieldInData with
  | false => simp
  | true =>
    obtain ⟨i, field, hi, hfield, htype, hsize⟩ := h.index hindex
    have hplace : info.description.getIndexField.toNat = i := toNat_getIndexField hi
    have hwidth : info.description.elementSize i field = 4 := by
      rw [← size_listedType]
      unfold listedType
      rw [htype, ite_self]
      rfl
    have hfits := fieldsSize_add_le hfield hsize (Nat.le_of_eq h.fieldCount)
    rw [if_pos rfl, if_pos rfl, h.producedOffset_eq, hindex, if_pos rfl, hplace]
    omega

theorem Described.getIndexFieldOffset_eq (h : Described info) :
    (if info.description.hasIndexFieldInData then info.description.getIndexFieldOffset else 0) =
      producedIdOffset info := by
  unfold producedIdOffset
  cases hindex : info.description.hasIndexFieldInData with
  | false => rfl
  | true =>
    obtain ⟨i, field, hi, hfield, htype, hsize⟩ := h.index hindex
    have hne : info.description.indexField ≠ -1 := by
      simpa [DB2Meta.hasIndexFieldInData] using hindex
    rw [if_pos rfl, if_pos rfl, h.producedOffset_eq, hindex, if_pos rfl, toNat_getIndexField hi]
    unfold DB2Meta.getIndexFieldOffset
    rw [if_neg hne, hi, Int.toNat_natCast, Nat.zero_add]

theorem copiedIdOffset_lt (impl : DB2FileLoaderRegularImpl) {offset : UInt32}
    (h : impl.copiedIdOffset info = .ok offset) : offset.toNat < 2 ^ 16 := by
  unfold DB2FileLoaderRegularImpl.copiedIdOffset at h
  split at h
  · cases hfield : impl.getFieldOffset info.description.getIndexField with
    | error e =>
      rw [hfield] at h
      cases h
    | ok fieldOffset =>
      rw [hfield] at h
      cases h
      exact fieldOffset.toNat_lt
  · cases h
    decide

variable {records : UInt32} {made : List MadeCopy} {recordCount : Nat}

theorem Produced.toNat_size (h : Produced info.description.getRecordSize recordCount copies records
    table) (hcopies : copies ≠ []) :
    (UInt32.ofNat info.description.getRecordSize).toNat = info.description.getRecordSize := by
  have hpositive := length_pos_of_ne_nil hcopies
  have hone : 1 * info.description.getRecordSize ≤
      (recordCount + copies.length) * info.description.getRecordSize :=
    Nat.mul_le_mul_right _ (by omega)
  have htotal := h.addressable
  exact toNat_ofNat_of_lt' (show _ < 2 ^ 32 by omega)

theorem alwaysExact_of_ok {run : ProducedTable → Except DB2Failure ProducedTable}
    {size idOffset : Nat} (hrun : ∀ table, run table = .ok table) :
    AlwaysExact run recordCount size idOffset [] table := by
  intro dataTable _
  refine ⟨⟨table.indexTable, dataTable⟩, hrun _, rfl, ?_⟩
  exact ⟨fun m hm => absurd hm not_mem_nil, List.Pairwise.nil,
    fun m hm => absurd hm not_mem_nil, fun _ _ => rfl⟩

theorem Described.produceCopies_iff (h : Described info) {recordCount idFieldOffset : UInt32}
    (htable : Produced info.description.getRecordSize recordCount.toNat copies records table)
    (hcopies : copies ≠ [])
    (hmade : madeCopies records info.description.getRecordSize copies table.indexTable
      (recordCount.toNat * info.description.getRecordSize) = made)
    (hoffset : idFieldOffset.toNat < 2 ^ 16 ∨
      idFieldOffset.toNat + 4 ≤ info.description.getRecordSize) :
    AlwaysExact (produceCopies (UInt32.ofNat info.description.getRecordSize) recordCount
        idFieldOffset records copies)
        recordCount.toNat info.description.getRecordSize (producedIdOffset info) made table ↔
      made = [] ∨ (idFieldOffset.toNat = producedIdOffset info ∧
        (info.description.getRecordSize = 4 ∨ ∀ m ∈ made, ¬m.OfItself)) := by
  have hid := h.index_inside
  have hsize := htable.toNat_size hcopies
  generalize UInt32.ofNat info.description.getRecordSize = recordsize at hsize ⊢
  rw [← hsize] at htable hmade hid hoffset ⊢
  exact RecordCopies.produceCopies_iff htable hmade hid hoffset

/-- The copies of a table that is not sparse. -/
theorem regular_iff (h : Described info) (impl : DB2FileLoaderRegularImpl)
    (hinfo : impl.loadInfo = some info)
    (htable : Produced info.description.getRecordSize impl.header.recordCount.toNat impl.copyTable
      records table)
    (hmade : madeCopies records info.description.getRecordSize impl.copyTable table.indexTable
      (impl.header.recordCount.toNat * info.description.getRecordSize) = made) :
    AlwaysExact (impl.autoProduceRecordCopies records) impl.header.recordCount.toNat
        info.description.getRecordSize (producedIdOffset info) made table ↔
      impl.copyTable = [] ∨ ∃ offset, impl.copiedIdOffset info = .ok offset ∧
        (made = [] ∨ (offset.toNat = producedIdOffset info ∧
          (info.description.getRecordSize = 4 ∨ ∀ m ∈ made, ¬m.OfItself))) := by
  have hrun (table : ProducedTable) : impl.autoProduceRecordCopies records table =
      if impl.copyTable.length = 0 then .ok table
      else impl.copiedIdOffset info >>= fun idFieldOffset =>
        produceCopies (UInt32.ofNat info.description.getRecordSize) impl.header.recordCount
          idFieldOffset records impl.copyTable table := by
    unfold DB2FileLoaderRegularImpl.autoProduceRecordCopies
    rw [hinfo]
    rfl
  by_cases hcopies : impl.copyTable = []
  · rw [hcopies] at hmade
    subst hmade
    refine iff_of_true (alwaysExact_of_ok fun table => ?_) (.inl hcopies)
    rw [hrun, hcopies]
    rfl
  · have hlength : impl.copyTable.length ≠ 0 := fun h => hcopies (length_eq_zero_iff.mp h)
    rw [or_iff_right hcopies]
    cases hoffset : impl.copiedIdOffset info with
    | error e =>
      refine iff_of_false (fun hexact => ?_) fun ⟨offset, hok, _⟩ => by cases hok
      obtain ⟨result, hresult, _⟩ := hexact table.dataTable SameIds.refl
      rw [hrun, if_neg hlength, hoffset] at hresult
      cases hresult
    | ok offset =>
      have hloop : impl.autoProduceRecordCopies records =
          produceCopies (UInt32.ofNat info.description.getRecordSize) impl.header.recordCount
            offset records impl.copyTable := by
        funext table
        rw [hrun, if_neg hlength, hoffset]
        rfl
      rw [hloop, h.produceCopies_iff htable hcopies hmade (.inl (copiedIdOffset_lt impl hoffset))]
      exact ⟨fun hsame => ⟨offset, rfl, hsame⟩, fun ⟨_, hok, hsame⟩ => by cases hok; exact hsame⟩

theorem sparse_iff (h : Described info) (impl : DB2FileLoaderSparseImpl)
    (hinfo : impl.loadInfo = some info)
    (htable : Produced info.description.getRecordSize impl.header.recordCount.toNat impl.copyTable
      records table)
    (hmade : madeCopies records info.description.getRecordSize impl.copyTable table.indexTable
      (impl.header.recordCount.toNat * info.description.getRecordSize) = made) :
    AlwaysExact (impl.autoProduceRecordCopies records) impl.header.recordCount.toNat
        info.description.getRecordSize (producedIdOffset info) made table ↔
      made = [] ∨ info.description.getRecordSize = 4 ∨ ∀ m ∈ made, ¬m.OfItself := by
  have hrun (table : ProducedTable) : impl.autoProduceRecordCopies records table =
      if impl.copyTable.length = 0 then .ok table
      else produceCopies (UInt32.ofNat info.description.getRecordSize) impl.header.recordCount
        (DB2FileLoaderSparseImpl.copiedIdOffset info) records impl.copyTable table := by
    unfold DB2FileLoaderSparseImpl.autoProduceRecordCopies
    rw [hinfo]
    rfl
  by_cases hcopies : impl.copyTable = []
  · rw [hcopies] at hmade
    subst hmade
    refine iff_of_true (alwaysExact_of_ok fun table => ?_) (.inl rfl)
    rw [hrun, hcopies]
    rfl
  · have hlength : impl.copyTable.length ≠ 0 := fun h => hcopies (length_eq_zero_iff.mp h)
    have hloop : impl.autoProduceRecordCopies records =
        produceCopies (UInt32.ofNat info.description.getRecordSize) impl.header.recordCount
          (DB2FileLoaderSparseImpl.copiedIdOffset info) records impl.copyTable := by
      funext table
      rw [hrun, if_neg hlength]
    have hinside := h.index_inside
    have hoffset : (DB2FileLoaderSparseImpl.copiedIdOffset info).toNat = producedIdOffset info := by
      have hsmall := (UInt32.ofNat info.description.getRecordSize).toNat_lt
      rw [htable.toNat_size hcopies] at hsmall
      rw [← h.getIndexFieldOffset_eq] at hinside ⊢
      unfold DB2FileLoaderSparseImpl.copiedIdOffset
      split
      · rename_i hindex
        rw [if_pos hindex] at hinside
        exact toNat_ofNat_of_lt' (show _ < 2 ^ 32 by omega)
      · rfl
    rw [hloop, h.produceCopies_iff htable hcopies hmade (.inr (hoffset ▸ hinside))]
    rw [hoffset]
    simp only [true_and]

def namedInfo : DB2FileLoadInfo where
  fields := [⟨false, .stringNotLocalized, "Name"⟩, ⟨false, .int, "ID"⟩]
  description := {
    indexField := 1
    parentIndexField := -1
    fieldCount := 2
    fileFieldCount := 2
    fields := [⟨.stringNotLocalized, 1, false⟩, ⟨.int, 1, false⟩] }

def namedLoader : DB2FileLoaderRegularImpl where
  fileName := "Named.db2"
  loadInfo := some namedInfo
  header := {
    recordCount := 1
    fieldCount := 2
    recordSize := 8
    stringTableSize := 0
    locale := 1
    flags := 0
    indexField := 1
    packedDataOffset := 8
    sectionCount := 1 }
  columnMeta := some [⟨0, 32, 0, 0, ⟨0, 0, 0⟩⟩, ⟨32, 32, 0, 0, ⟨0, 0, 0⟩⟩]
  copyTable := [⟨6, 5⟩]

def namedTable : ProducedTable where
  indexTable := [none, none, none, none, none, some 0, none]
  dataTable := [1, 2, 3, 4, 5, 6, 7, 8, 5, 0, 0, 0] ++ List.replicate 12 0

theorem described_namedInfo : Described namedInfo :=
  ⟨rfl, rfl, fun _ => ⟨1, ⟨.int, 1, false⟩, rfl, rfl, rfl, by decide⟩⟩

theorem produced_namedTable : Produced namedInfo.description.getRecordSize
    namedLoader.header.recordCount.toNat namedLoader.copyTable 7 namedTable where
  index := rfl
  length := rfl
  blocks := by
    intro id p h
    have hentries : ∀ entry ∈ namedTable.indexTable, entry = none ∨ entry = some 0 := by decide
    rcases hentries _ (mem_of_getElem? h) with hnone | hzero
    · cases hnone
    · cases hzero
      exact ⟨0, by decide, rfl⟩
  addressable := by decide

/-- The copies are exact, whatever the other members are, if and only if none is made, or the
loader's offset of the id is the one in the record and no row with other members is copied to
itself. -/
theorem record_copies_exact_iff (h : Described info) :
    (∀ impl : DB2FileLoaderRegularImpl, impl.loadInfo = some info →
      Produced info.description.getRecordSize impl.header.recordCount.toNat impl.copyTable records
        table →
      let made := madeCopies records info.description.getRecordSize impl.copyTable table.indexTable
        (impl.header.recordCount.toNat * info.description.getRecordSize)
      (AlwaysExact (impl.autoProduceRecordCopies records) impl.header.recordCount.toNat
          info.description.getRecordSize (producedIdOffset info) made table ↔
        impl.copyTable = [] ∨ ∃ offset, impl.copiedIdOffset info = .ok offset ∧
          (made = [] ∨ (offset.toNat = producedIdOffset info ∧
            (info.description.getRecordSize = 4 ∨ ∀ m ∈ made, ¬m.OfItself))))) ∧
    ∀ impl : DB2FileLoaderSparseImpl, impl.loadInfo = some info →
      Produced info.description.getRecordSize impl.header.recordCount.toNat impl.copyTable records
        table →
      let made := madeCopies records info.description.getRecordSize impl.copyTable table.indexTable
        (impl.header.recordCount.toNat * info.description.getRecordSize)
      (AlwaysExact (impl.autoProduceRecordCopies records) impl.header.recordCount.toNat
          info.description.getRecordSize (producedIdOffset info) made table ↔
        made = [] ∨ info.description.getRecordSize = 4 ∨ ∀ m ∈ made, ¬m.OfItself) := by
  refine ⟨fun impl hinfo htable => ?_, fun impl hinfo htable => ?_⟩
  · exact regular_iff h impl hinfo htable rfl
  · exact sparse_iff h impl hinfo htable rfl

def namedSparse : DB2FileLoaderSparseImpl where
  fileName := "Named.db2"
  loadInfo := some namedInfo
  header := namedLoader.header
  source := { fileName := "Named.db2", content := [] }
  copyTable := [⟨6, 5⟩]

theorem record_copies_exact_iff_named :
    ¬AlwaysExact (namedLoader.autoProduceRecordCopies 7) 1 12 8 [⟨12, 0, ⟨6, 5⟩⟩] namedTable ∧
      AlwaysExact (namedSparse.autoProduceRecordCopies 7) 1 12 8 [⟨12, 0, ⟨6, 5⟩⟩] namedTable := by
  obtain ⟨hregular, hsparse⟩ := record_copies_exact_iff described_namedInfo
  constructor
  · intro hexact
    have hright := (hregular namedLoader rfl produced_namedTable).mp hexact
    rcases hright with hnone | ⟨offset, hoffset, hmade | ⟨hsame, _⟩⟩
    · cases hnone
    · cases hmade
    · cases hoffset
      exact absurd hsame (by decide)
  · exact (hsparse namedSparse rfl produced_namedTable).mpr (.inr (.inr (by decide)))

/-- The id of the copy stays 5, and half of its name is the new id. -/
theorem record_copies_corrupted :
    ¬CopiesExactly (namedLoader.autoProduceRecordCopies 7) 12 12 8 [⟨12, 0, ⟨6, 5⟩⟩]
      namedTable := by
  rintro ⟨result, hrun, _, hexact⟩
  cases hrun
  have hid := hexact.copied _ (mem_singleton_self _) 8 (by decide)
  exact absurd hid (by decide)

end Descriptions
end LegionServer.Guarantees.RecordCopies
