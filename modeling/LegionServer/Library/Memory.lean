import LegionServer.Library.Bits

/-!
# Memory

Loads and stores in a block of bytes, and how plain data lies in it.
-/
namespace LegionServer.Library
open List Option

/-- `none` outside the block. -/
def load (memory : List UInt8) (address size : Nat) : Option (List UInt8) :=
  if address + size ≤ memory.length then some ((memory.drop address).take size) else none

/-- `none` outside the block. -/
def store (memory : List UInt8) (address : Nat) (bytes : List UInt8) : Option (List UInt8) :=
  if address + bytes.length ≤ memory.length then
    some (memory.take address ++ bytes ++ memory.drop (address + bytes.length))
  else none

def Holds (memory : List UInt8) (address : Nat) (bytes : List UInt8) : Prop :=
  address + bytes.length ≤ memory.length ∧ (memory.drop address).take bytes.length = bytes

section Access

variable {memory memory' bytes more : List UInt8} {address other size : Nat}

theorem holds_append (before bytes after : List UInt8) :
    Holds (before ++ (bytes ++ after)) before.length bytes := by
  constructor
  · rw [length_append, length_append]
    omega
  · rw [drop_left, take_left]

theorem store_of_fits (h : address + bytes.length ≤ memory.length) :
    store memory address bytes =
      some (memory.take address ++ bytes ++ memory.drop (address + bytes.length)) :=
  if_pos h

theorem length_store (h : store memory address bytes = some memory') :
    memory'.length = memory.length := by
  rw [store, ite_none_right_eq_some] at h
  obtain ⟨hfits, h⟩ := h
  cases h
  rw [length_append, length_append, length_take, length_drop]
  omega

/-- Byte by byte, what was stored stands where it was stored. -/
theorem getElem?_store (h : store memory address bytes = some memory') (i : Nat) :
    memory'[i]? =
      if address ≤ i ∧ i < address + bytes.length then bytes[i - address]? else memory[i]? := by
  rw [store, ite_none_right_eq_some] at h
  obtain ⟨hfits, h⟩ := h
  cases h
  have htake : (memory.take address).length = address := length_take_of_le (by omega)
  by_cases hbefore : i < address
  · rw [if_neg (by omega), append_assoc, getElem?_append_left (by omega),
      getElem?_take_of_lt hbefore]
  by_cases hinside : i < address + bytes.length
  · rw [if_pos ⟨by omega, hinside⟩, append_assoc, getElem?_append_right (by omega),
      htake, getElem?_append_left (by omega)]
  · rw [if_neg (by omega), getElem?_append_right (by rw [length_append]; omega),
      length_append, htake, getElem?_drop]
    congr 1
    omega

theorem getElem?_load (h : load memory address size = some bytes) {i : Nat} (hi : i < size) :
    bytes[i]? = memory[address + i]? := by
  rw [load, ite_none_right_eq_some] at h
  obtain ⟨_, h⟩ := h
  cases h
  rw [getElem?_take_of_lt hi, getElem?_drop]

theorem length_load (h : load memory address size = some bytes) : bytes.length = size := by
  rw [load, ite_none_right_eq_some] at h
  obtain ⟨hfits, h⟩ := h
  cases h
  exact length_take_of_le (by rw [length_drop]; omega)

theorem Holds.of_store (h : store memory address bytes = some memory') :
    Holds memory' address bytes := by
  rw [store, ite_none_right_eq_some] at h
  obtain ⟨hfits, h⟩ := h
  cases h
  have hholds := holds_append (memory.take address) bytes (memory.drop (address + bytes.length))
  rw [length_take, Nat.min_eq_left (by omega), ← append_assoc] at hholds
  exact hholds

/-- A store leaves what lies elsewhere. -/
theorem Holds.frame (h : Holds memory other more) (hstore : store memory address bytes = some memory')
    (hapart : other + more.length ≤ address ∨ address + bytes.length ≤ other) :
    Holds memory' other more := by
  have hlength := length_store hstore
  refine ⟨hlength ▸ h.1, ?_⟩
  rw [store, ite_none_right_eq_some] at hstore
  obtain ⟨hfits, hstore⟩ := hstore
  have htake : (memory.take address).length = address := by
    rw [length_take]
    omega
  cases hstore
  rcases hapart with hbelow | habove
  · rw [append_assoc, drop_append_of_le_length (by omega), take_append_of_le_length
      (by rw [length_drop]; omega), drop_take, take_take, Nat.min_eq_left (by omega),
      h.2]
  · have hprefix : (memory.take address ++ bytes).length = address + bytes.length := by
      rw [length_append, htake]
    rw [drop_append, hprefix, drop_eq_nil_of_le (by omega), nil_append,
      drop_drop, Nat.add_sub_cancel' habove, h.2]

theorem Holds.append (h : Holds memory address bytes)
    (hmore : Holds memory (address + bytes.length) more) :
    Holds memory address (bytes ++ more) := by
  refine ⟨by rw [length_append, ← Nat.add_assoc]; exact hmore.1, ?_⟩
  rw [length_append, take_add, h.2, drop_drop, hmore.2]

theorem Holds.load (h : Holds memory address bytes) :
    load memory address bytes.length = some bytes := by
  rw [Library.load, if_pos h.1, h.2]

end Access

/-- How the values of a type lie in memory. -/
structure PlainData (α : Type) where
  size : Nat
  write : α → List UInt8
  read : List UInt8 → α
  length_write : ∀ value, (write value).length = size
  read_write : ∀ value rest, read (write value ++ rest) = value

namespace PlainData

variable {α β : Type}

def pair (first : PlainData α) (second : PlainData β) : PlainData (α × β) where
  size := first.size + second.size
  write value := first.write value.1 ++ second.write value.2
  read bytes := (first.read bytes, second.read (bytes.drop first.size))
  length_write value := by rw [length_append, first.length_write, second.length_write]
  read_write value rest := by
    rw [append_assoc, first.read_write, drop_append_of_le_length
      (Nat.le_of_eq (first.length_write _).symm), drop_eq_nil_of_le
      (Nat.le_of_eq (first.length_write _)), nil_append, second.read_write]

def as (layout : PlainData α) (toValue : α → β) (ofValue : β → α)
    (h : ∀ value, toValue (ofValue value) = value) : PlainData β where
  size := layout.size
  write value := layout.write (ofValue value)
  read bytes := toValue (layout.read bytes)
  length_write value := layout.length_write _
  read_write value rest := by rw [layout.read_write, h]

/-- A number of `size` bytes. -/
def number (size : Nat) (ofNat : Nat → α) (toNat : α → Nat)
    (hlt : ∀ value, toNat value < 256 ^ size) (h : ∀ value, ofNat (toNat value) = value) :
    PlainData α where
  size := size
  write value := bytesOf size (toNat value)
  read bytes := ofNat (valueOf (bytes.take size))
  length_write value := length_bytesOf ..
  read_write value rest := by
    rw [take_append_of_le_length (Nat.le_of_eq (length_bytesOf ..).symm),
      take_of_length_le (Nat.le_of_eq (length_bytesOf ..)), valueOf_bytesOf,
      Nat.mod_eq_of_lt (hlt value), h]

def uint16 : PlainData UInt16 :=
  number 2 UInt16.ofNat UInt16.toNat UInt16.toNat_lt fun _ => UInt16.ofNat_toNat

def uint32 : PlainData UInt32 :=
  number 4 UInt32.ofNat UInt32.toNat UInt32.toNat_lt fun _ => UInt32.ofNat_toNat

/-- An array of `count` elements. -/
def readAll (layout : PlainData α) : Nat → List UInt8 → List α
  | 0, _ => []
  | count + 1, bytes => layout.read bytes :: layout.readAll count (bytes.drop layout.size)

variable (layout : PlainData α)

theorem length_readAll (count : Nat) (bytes : List UInt8) :
    (layout.readAll count bytes).length = count := by
  induction count generalizing bytes with
  | zero => rfl
  | succ count ih => rw [readAll, length_cons, ih]

end PlainData

end LegionServer.Library
