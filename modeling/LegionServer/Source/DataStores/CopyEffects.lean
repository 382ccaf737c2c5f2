import LegionServer.Source.DataStores.ProducedTables

/-!
# What copying records does

What the body of the loop of `AutoProduceRecordCopies` writes, and from it what the loop leaves:
the copies get the blocks from the offset on, one after the other.
-/
namespace LegionServer.Source.DataStores
open Library List

structure MadeCopy where
  block : Nat
  source : Nat
  copy : DB2RecordCopy

def MadeCopy.OfItself (made : MadeCopy) : Prop := made.copy.newRowId = made.copy.sourceRowId

instance (made : MadeCopy) : Decidable made.OfItself :=
  inferInstanceAs (Decidable (made.copy.newRowId = made.copy.sourceRowId))

/-- The copies whose source exists when their turn comes. -/
def madeCopies (records : UInt32) (size : Nat) :
    List DB2RecordCopy → List (Option Nat) → Nat → List MadeCopy
  | [], _, _ => []
  | copy :: copies, indexTable, offset =>
    match copySource records indexTable copy with
    | none => madeCopies records size copies indexTable offset
    | some source => ⟨offset, source, copy⟩ ::
        madeCopies records size copies (indexTable.set copy.newRowId.toNat (some offset))
          (offset + size)

variable {recordsize idFieldOffset records offset : UInt32} {copies : List DB2RecordCopy}
  {copy : DB2RecordCopy} {table : ProducedTable} {indexTable : List (Option Nat)} {base size : Nat}

theorem copySource_eq_some {source : Nat} (h : copySource records indexTable copy = some source) :
    indexTable[copy.sourceRowId.toNat]? = some (some source) ∧ copy.newRowId < records := by
  unfold copySource at h
  split at h
  · rename_i hguard
    refine ⟨?_, hguard.2.2⟩
    rw [getD_eq_getElem?_getD] at h
    cases hentry : indexTable[copy.sourceRowId.toNat]? with
    | none =>
      rw [hentry] at h
      cases h
    | some entry =>
      rw [hentry] at h
      exact congrArg some h
  · cases h

theorem produceCopy_none (hsource : copySource records table.indexTable copy = none) :
    produceCopy recordsize idFieldOffset records (table, offset) copy = .ok (table, offset) := by
  unfold produceCopy
  dsimp only
  rw [hsource]

/-- What the step for a copy leaves at a place of the data table. -/
def stepByte (dataTable : List UInt8) (base size idOffset : Nat) (m : MadeCopy) (i : Nat) :
    Option UInt8 :=
  if base + idOffset ≤ i ∧ i < base + idOffset + 4 then
    (bytesOf 4 m.copy.newRowId.toNat)[i - (base + idOffset)]?
  else if base ≤ i ∧ i < base + size then
    if m.OfItself then dataTable[i]? else dataTable[m.source + (i - base)]?
  else dataTable[i]?

theorem produceCopy_eq {source : Nat}
    (hsource : copySource records table.indexTable copy = some source)
    (hoffset : offset.toNat = base) (hindex : table.indexTable.length = records.toNat)
    (hwithin : source + recordsize.toNat ≤ base)
    (hblock : base + recordsize.toNat ≤ table.dataTable.length)
    (hid : base + idFieldOffset.toNat + 4 ≤ table.dataTable.length)
    (haddress : table.dataTable.length < 2 ^ 32) :
    ∃ dataTable, produceCopy recordsize idFieldOffset records (table, offset) copy =
          .ok (⟨table.indexTable.set copy.newRowId.toNat (some base), dataTable⟩,
            offset + recordsize) ∧
      dataTable.length = table.dataTable.length ∧
      ∀ i, dataTable[i]? = stepByte table.dataTable base recordsize.toNat idFieldOffset.toNat
        ⟨base, source, copy⟩ i := by
  obtain ⟨hentry, hnew⟩ := copySource_eq_some hsource
  have hnewLength : copy.newRowId.toNat < table.indexTable.length :=
    hindex ▸ UInt32.lt_iff_toNat_lt.mp hnew
  -- the block that is read: the new one if the row is copied to itself
  generalize hread : (if copy.newRowId = copy.sourceRowId then base else source) = read
  have hlookup : (table.indexTable.set copy.newRowId.toNat (some base)).getD
      copy.sourceRowId.toNat none = some read := by
    rw [getD_eq_getElem?_getD, getElem?_set, ← hread]
    by_cases hself : copy.newRowId = copy.sourceRowId
    · rw [if_pos hself, if_pos (congrArg UInt32.toNat hself), if_pos hnewLength]
      rfl
    · have hne : copy.newRowId.toNat ≠ copy.sourceRowId.toNat :=
        fun h => hself (UInt32.toNat_inj.mp h)
      rw [if_neg hself, if_neg hne, hentry]
      rfl
  have hreadFits : read + recordsize.toNat ≤ table.dataTable.length := by
    rw [← hread]
    split <;> omega
  have hload : load table.dataTable read recordsize.toNat =
      some ((table.dataTable.drop read).take recordsize.toNat) := if_pos hreadFits
  have hbytes := length_load hload
  obtain ⟨copied, hcopied⟩ : ∃ copied, store table.dataTable base
      ((table.dataTable.drop read).take recordsize.toNat) = some copied :=
    ⟨_, store_of_fits (by rw [hbytes]; exact hblock)⟩
  have hcopiedLength := length_store hcopied
  have hplace : (offset + idFieldOffset).toNat = base + idFieldOffset.toNat := by
    rw [UInt32.toNat_add, hoffset, Nat.mod_eq_of_lt (by omega)]
  obtain ⟨dataTable, hdata⟩ : ∃ dataTable, store copied (base + idFieldOffset.toNat)
      (bytesOf 4 copy.newRowId.toNat) = some dataTable :=
    ⟨_, store_of_fits (by rw [length_bytesOf, hcopiedLength]; exact hid)⟩
  refine ⟨dataTable, ?_, (length_store hdata).trans hcopiedLength, fun i => ?_⟩
  · unfold produceCopy
    dsimp only
    rw [hsource]
    rw [hoffset, hlookup]
    change pointee (load table.dataTable read recordsize.toNat) >>= _ = _
    rw [hload]
    change pointee (store table.dataTable base _) >>= _ = _
    rw [hcopied]
    change pointee (store copied (offset + idFieldOffset).toNat _) >>= _ = _
    rw [hplace, hdata]
    rfl
  · unfold stepByte
    rw [getElem?_store hdata, length_bytesOf]
    split
    · rfl
    rw [getElem?_store hcopied, hbytes]
    split
    · rename_i hinside
      rw [getElem?_load hload (by omega), ← hread]
      by_cases hself : copy.newRowId = copy.sourceRowId
      · have hplaceOf : base + (i - base) = i := by omega
        rw [if_pos hself, hplaceOf]
        exact (if_pos hself).symm
      · rw [if_neg hself]
        exact (if_neg hself).symm
    · rfl

section Runs

def EndsBefore (size base : Nat) (indexTable : List (Option Nat)) : Prop :=
  ∀ (id p : Nat), indexTable[id]? = some (some p) → p + size ≤ base

theorem EndsBefore.set (h : EndsBefore size base indexTable) (id : Nat) :
    EndsBefore size (base + size) (indexTable.set id (some base)) := by
  intro id' p hp
  rw [getElem?_set] at hp
  split at hp
  · split at hp
    · cases hp
      exact Nat.le_refl _
    · cases hp
  · exact Nat.le_trans (h id' p hp) (Nat.le_add_right ..)

section
variable (records : UInt32) (copies : List DB2RecordCopy) (h : EndsBefore size base indexTable)
include h

theorem madeCopies_blocks :
    ∀ m ∈ madeCopies records size copies indexTable base,
      base ≤ m.block ∧ m.block + size ≤ base + copies.length * size ∧
        m.source + size ≤ m.block := by
  induction copies generalizing indexTable base with
  | nil =>
    intro m hm
    cases hm
  | cons copy copies ih =>
    intro m hm
    have hlength : (copies.length + 1) * size = copies.length * size + size := Nat.succ_mul ..
    rw [length_cons, hlength]
    rw [madeCopies] at hm
    split at hm
    · obtain ⟨hbase, hend, hsource⟩ := ih h m hm
      exact ⟨hbase, by omega, hsource⟩
    rename_i source hcopy
    rcases mem_cons.mp hm with rfl | hm
    · have hentry := (copySource_eq_some hcopy).1
      refine ⟨Nat.le_refl _, ?_, h _ _ hentry⟩
      dsimp only
      omega
    · obtain ⟨hbase, hend, hsource⟩ := ih (h.set copy.newRowId.toNat) m hm
      exact ⟨by omega, by omega, hsource⟩

theorem madeCopies_apart :
    (madeCopies records size copies indexTable base).Pairwise fun m m' =>
      m.block + size ≤ m'.block := by
  induction copies generalizing indexTable base with
  | nil => exact List.Pairwise.nil
  | cons copy copies ih =>
    rw [madeCopies]
    split
    · exact ih h
    · refine pairwise_cons.mpr ⟨fun m hm => ?_, ih (h.set copy.newRowId.toNat)⟩
      exact (madeCopies_blocks records copies (h.set copy.newRowId.toNat) m hm).1

end

structure Copied (size idOffset : Nat) (made : List MadeCopy)
    (before after : List UInt8) : Prop where
  length : after.length = before.length
  copied : ∀ m ∈ made, ∀ i < size, after[m.block + i]? =
    if idOffset ≤ i ∧ i < idOffset + 4 then (bytesOf 4 m.copy.newRowId.toNat)[i - idOffset]?
    else if m.OfItself then before[m.block + i]? else after[m.source + i]?
  frame : ∀ i, (∀ m ∈ made, i < m.block ∨ m.block + size ≤ i) → after[i]? = before[i]?

theorem produceCopies_copied (table : ProducedTable) (hoffset : offset.toNat = base)
    (hindex : table.indexTable.length = records.toNat)
    (hends : EndsBefore recordsize.toNat base table.indexTable)
    (hid : idFieldOffset.toNat + 4 ≤ recordsize.toNat)
    (hroom : base + copies.length * recordsize.toNat ≤ table.dataTable.length)
    (haddress : table.dataTable.length < 2 ^ 32) :
    ∃ result, copies.foldlM (produceCopy recordsize idFieldOffset records) (table, offset) =
        .ok result ∧
      Copied recordsize.toNat idFieldOffset.toNat
        (madeCopies records recordsize.toNat copies table.indexTable base) table.dataTable
        result.1.dataTable := by
  induction copies generalizing table offset base with
  | nil =>
    refine ⟨(table, offset), rfl, rfl, fun m hm => ?_, fun _ _ => rfl⟩
    cases hm
  | cons copy copies ih =>
    rw [length_cons, Nat.succ_mul] at hroom
    rw [foldlM_cons]
    cases hsource : copySource records table.indexTable copy with
    | none =>
      obtain ⟨result, hrun, hcopied⟩ := ih table hoffset hindex hends (by omega) haddress
      refine ⟨result, ?_, ?_⟩
      · rw [produceCopy_none hsource]
        exact hrun
      · rw [madeCopies, hsource]
        exact hcopied
    | some source =>
      have hwithin := hends _ _ (copySource_eq_some hsource).1
      have hfits : base + idFieldOffset.toNat + 4 ≤ table.dataTable.length := by omega
      obtain ⟨dataTable, hstep, hlength, hbytes⟩ := produceCopy_eq hsource hoffset hindex hwithin
        (by omega) hfits haddress
      have hnext : (offset + recordsize).toNat = base + recordsize.toNat := by
        rw [UInt32.toNat_add, hoffset, Nat.mod_eq_of_lt (by omega)]
      have hends' := hends.set copy.newRowId.toNat
      obtain ⟨result, hrun, hcopied⟩ := ih ⟨table.indexTable.set copy.newRowId.toNat
        (some base), dataTable⟩ hnext (by rw [length_set]; exact hindex) hends'
        (by dsimp only; omega) (by dsimp only; omega)
      have hblocks := madeCopies_blocks records copies hends'
      -- the later copies leave everything up to the end of this block
      have hbelow : ∀ i < base + recordsize.toNat, result.1.dataTable[i]? = dataTable[i]? :=
        fun i hi => hcopied.frame i fun m hm => .inl (Nat.lt_of_lt_of_le hi (hblocks m hm).1)
      have hkeep : ∀ i, i < base ∨ base + recordsize.toNat ≤ i →
          dataTable[i]? = table.dataTable[i]? := by
        intro i hi
        rw [hbytes, stepByte, if_neg (by omega), if_neg (by omega)]
      refine ⟨result, ?_, hcopied.length.trans hlength, ?_, ?_⟩
      · rw [hstep]
        exact hrun
      · rw [madeCopies, hsource]
        intro m hm i hi
        rcases mem_cons.mp hm with rfl | hm
        · dsimp only
          rw [hbelow _ (by omega), hbytes, stepByte]
          by_cases hin : idFieldOffset.toNat ≤ i ∧ i < idFieldOffset.toNat + 4
          · rw [if_pos (by omega), if_pos hin]
            congr 1
            omega
          · rw [if_neg (by omega), if_pos (by omega), if_neg hin, Nat.add_sub_cancel_left]
            split
            · rfl
            · rw [hbelow _ (by omega), hkeep _ (.inl (by omega))]
        · have hblock := (hblocks m hm).1
          rw [hcopied.copied m hm i hi, hkeep _ (.inr (by omega))]
      · rw [madeCopies, hsource]
        intro i hi
        have hfirst := hi _ mem_cons_self
        rw [hcopied.frame i fun m hm => hi m (mem_cons_of_mem _ hm), hkeep i hfirst]

theorem Copied.agree {made : List MadeCopy} {before after before' after' : List UInt8}
    {idOffset : Nat} (h : Copied size idOffset made before after)
    (h' : Copied size idOffset made before' after') {place : Nat}
    (hsources : ∀ m ∈ made, m.source + size ≤ m.block)
    (hsame : ∀ i < place, before'[i]? = before[i]?) :
    ∀ i < place, after'[i]? = after[i]? := by
  intro i
  induction i using Nat.strongRecOn with
  | ind i ih =>
    intro hi
    by_cases hblock : ∃ m ∈ made, m.block ≤ i ∧ i < m.block + size
    · obtain ⟨m, hm, hle, hlt⟩ := hblock
      have hplace : m.block + (i - m.block) = i := by omega
      have hcopied := h.copied m hm (i - m.block) (by omega)
      have hcopied' := h'.copied m hm (i - m.block) (by omega)
      rw [hplace] at hcopied hcopied'
      rw [hcopied, hcopied']
      have hsource := hsources m hm
      split
      · rfl
      · split
        · exact hsame i hi
        · exact ih _ (by omega) (by omega)
    · have hout : ∀ m ∈ made, i < m.block ∨ m.block + size ≤ i := by
        intro m hm
        by_contra hin
        exact hblock ⟨m, hm, by omega, by omega⟩
      rw [h.frame i hout, h'.frame i hout, hsame i hi]

/-- Copies that are not made leave the table as it is. -/
theorem produceCopies_none (recordsize idFieldOffset offset : UInt32) (table : ProducedTable)
    (h : madeCopies records size copies table.indexTable base = []) :
    copies.foldlM (produceCopy recordsize idFieldOffset records) (table, offset) =
      .ok (table, offset) := by
  induction copies generalizing base with
  | nil => rfl
  | cons copy copies ih =>
    rw [madeCopies] at h
    split at h
    · rename_i hsource
      rw [foldlM_cons, produceCopy_none hsource]
      exact ih h
    · cases h

variable {result : ProducedTable × UInt32}

theorem produceCopy_wrote {source : Nat}
    (hsource : copySource records table.indexTable copy = some source)
    (hstep : produceCopy recordsize idFieldOffset records (table, offset) copy = .ok result) :
    result.2 = offset + recordsize ∧
      result.1.indexTable = table.indexTable.set copy.newRowId.toNat (some offset.toNat) ∧
      ∀ i < 4, result.1.dataTable[(offset + idFieldOffset).toNat + i]? =
        (bytesOf 4 copy.newRowId.toNat)[i]? := by
  unfold produceCopy at hstep
  dsimp only at hstep
  rw [hsource] at hstep
  cases hread : (table.indexTable.set copy.newRowId.toNat (some offset.toNat)).getD
      copy.sourceRowId.toNat none with
  | none =>
    rw [hread] at hstep
    cases hstep
  | some read =>
    rw [hread] at hstep
    change pointee (load table.dataTable read recordsize.toNat) >>= _ = _ at hstep
    cases hload : load table.dataTable read recordsize.toNat with
    | none =>
      rw [hload] at hstep
      cases hstep
    | some bytes =>
      rw [hload] at hstep
      change pointee (store table.dataTable offset.toNat bytes) >>= _ = _ at hstep
      cases hcopied : store table.dataTable offset.toNat bytes with
      | none =>
        rw [hcopied] at hstep
        cases hstep
      | some copied =>
        rw [hcopied] at hstep
        change pointee (store copied (offset + idFieldOffset).toNat
          (bytesOf 4 copy.newRowId.toNat)) >>= _ = _ at hstep
        cases hdata : store copied (offset + idFieldOffset).toNat
            (bytesOf 4 copy.newRowId.toNat) with
        | none =>
          rw [hdata] at hstep
          cases hstep
        | some dataTable =>
          rw [hdata] at hstep
          cases hstep
          refine ⟨rfl, rfl, fun i hi => ?_⟩
          rw [getElem?_store hdata, length_bytesOf, if_pos (by omega), Nat.add_sub_cancel_left]

theorem produceCopies_last (table : ProducedTable) (hoffset : offset.toNat = base)
    (hends : EndsBefore recordsize.toNat base table.indexTable)
    (haddress : base + copies.length * recordsize.toNat + idFieldOffset.toNat < 2 ^ 32)
    (hrun : copies.foldlM (produceCopy recordsize idFieldOffset records) (table, offset) =
      .ok result)
    (hmade : madeCopies records recordsize.toNat copies table.indexTable base ≠ []) :
    ∃ last,
      (madeCopies records recordsize.toNat copies table.indexTable base).getLast? = some last ∧
      ∀ i < 4, result.1.dataTable[last.block + idFieldOffset.toNat + i]? =
        (bytesOf 4 last.copy.newRowId.toNat)[i]? := by
  induction copies generalizing table offset base with
  | nil => exact absurd rfl hmade
  | cons copy copies ih =>
    rw [length_cons, Nat.succ_mul] at haddress
    rw [foldlM_cons] at hrun
    cases hstep : produceCopy recordsize idFieldOffset records (table, offset) copy with
    | error e =>
      rw [hstep] at hrun
      cases hrun
    | ok next =>
      rw [hstep] at hrun
      change copies.foldlM (produceCopy recordsize idFieldOffset records) next = .ok result at hrun
      cases hsource : copySource records table.indexTable copy with
      | none =>
        rw [produceCopy_none hsource] at hstep
        cases hstep
        rw [madeCopies, hsource] at hmade ⊢
        exact ih table hoffset hends (by omega) hrun hmade
      | some source =>
        obtain ⟨hnext, hindex, hwrote⟩ := produceCopy_wrote hsource hstep
        have hnextOffset : next.2.toNat = base + recordsize.toNat := by
          rw [hnext, UInt32.toNat_add, hoffset, Nat.mod_eq_of_lt (by omega)]
        have hplace : (offset + idFieldOffset).toNat = base + idFieldOffset.toNat := by
          rw [UInt32.toNat_add, hoffset, Nat.mod_eq_of_lt (by omega)]
        have hends' := hends.set copy.newRowId.toNat
        rw [hoffset] at hindex
        rw [← hindex] at hends'
        rw [madeCopies, hsource]
        rw [← hindex]
        by_cases hlast : madeCopies records recordsize.toNat copies next.1.indexTable
            (base + recordsize.toNat) = []
        · have hsame := produceCopies_none recordsize idFieldOffset next.2 next.1 hlast
          rw [hlast]
          refine ⟨⟨base, source, copy⟩, rfl, ?_⟩
          rw [hsame] at hrun
          cases hrun
          rw [← hplace]
          exact hwrote
        · obtain ⟨last, hmem, hbytes⟩ := ih next.1 hnextOffset hends' (by omega) hrun hlast
          refine ⟨last, ?_, hbytes⟩
          rw [getLast?_cons_of_ne_nil hlast]
          exact hmem

end Runs

end LegionServer.Source.DataStores
