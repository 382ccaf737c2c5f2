import Mathlib.Data.List.Basic
import Mathlib.Data.Nat.Bitwise

/-!
# Numbers as bits and as bytes

The bits of a number from the most significant on, as a bit stream holds them, and its
bytes from the least significant on, as memory holds them.
-/
namespace LegionServer.Library
open List Bool

/-- The `n` low bits of a number, the most significant first. -/
def msbBits : Nat → Nat → List Bool
  | 0, _ => []
  | n + 1, v => v.testBit n :: msbBits n v

/-- The number with these bits, the most significant first. -/
def numberOf : List Bool → Nat
  | [] => 0
  | bit :: bits => bit.toNat * 2 ^ bits.length + numberOf bits

def bitsOfBytes (bytes : List UInt8) : List Bool := bytes.flatMap fun byte => msbBits 8 byte.toNat

/-- The `n` low bytes of a number, the least significant first. -/
def bytesOf : Nat → Nat → List UInt8
  | 0, _ => []
  | n + 1, v => UInt8.ofNat v :: bytesOf n (v / 256)

def valueOf : List UInt8 → Nat
  | [] => 0
  | byte :: bytes => byte.toNat + 256 * valueOf bytes

section Msb

variable {n v w : Nat}

@[simp] theorem length_msbBits (n v : Nat) : (msbBits n v).length = n := by
  induction n with
  | zero => rfl
  | succ n ih => rw [msbBits, length_cons, ih]

/-- High bits come before low bits. -/
theorem msbBits_add (a b v : Nat) : msbBits (a + b) v = msbBits a (v >>> b) ++ msbBits b v := by
  induction a with
  | zero => rw [Nat.zero_add, msbBits, nil_append]
  | succ a ih =>
    rw [Nat.add_right_comm, msbBits, msbBits, ih, Nat.testBit_shiftRight, Nat.add_comm b,
      cons_append]

theorem msbBits_congr (h : ∀ i < n, v.testBit i = w.testBit i) : msbBits n v = msbBits n w := by
  induction n with
  | zero => rfl
  | succ n ih =>
    rw [msbBits, msbBits, h n (Nat.lt_succ_self n), ih fun i hi => h i (Nat.lt_succ_of_lt hi)]

theorem testBit_of_msbBits (h : msbBits n v = msbBits n w) : ∀ i < n, v.testBit i = w.testBit i := by
  induction n with
  | zero => exact fun i hi => absurd hi (Nat.not_lt_zero i)
  | succ n ih =>
    rw [msbBits, msbBits, List.cons.injEq] at h
    intro i hi
    rcases Nat.lt_succ_iff_lt_or_eq.mp hi with hlt | rfl
    · exact ih h.2 i hlt
    · exact h.1

theorem msbBits_mod (n v : Nat) : msbBits n (v % 2 ^ n) = msbBits n v := by
  apply msbBits_congr
  intro i hi
  rw [Nat.testBit_mod_two_pow, decide_eq_true hi, Bool.true_and]

/-- The bits tell the number. -/
theorem eq_of_msbBits (hlt : v < 2 ^ n) (h : msbBits n v = msbBits n w) : v = w % 2 ^ n := by
  apply Nat.eq_of_testBit_eq
  intro i
  rw [Nat.testBit_mod_two_pow]
  by_cases hi : i < n
  · rw [decide_eq_true hi, Bool.true_and]
    exact testBit_of_msbBits h i hi
  · rw [decide_eq_false hi, Bool.false_and]
    exact Nat.testBit_lt_two_pow (Nat.lt_of_lt_of_le hlt (Nat.pow_le_pow_right (by omega) (by omega)))

theorem msbBits_of_low_zero (h : v % 2 ^ n = 0) : msbBits n v = List.replicate n false := by
  rw [← msbBits_mod, h]
  clear h
  induction n with
  | zero => rfl
  | succ n ih => rw [msbBits, Nat.zero_testBit, ih, replicate_succ]

theorem getElem?_msbBits (n v i : Nat) :
    (msbBits n v)[i]? = if i < n then some (v.testBit (n - 1 - i)) else none := by
  induction n generalizing i with
  | zero => rfl
  | succ n ih =>
    cases i with
    | zero => rw [msbBits, getElem?_cons_zero, if_pos (Nat.succ_pos n), Nat.sub_zero,
        Nat.add_sub_cancel]
    | succ i =>
      have hindex : n - 1 - i = n + 1 - 1 - (i + 1) := by omega
      rw [msbBits, getElem?_cons_succ, ih, hindex]
      simp only [Nat.add_lt_add_iff_right]

theorem numberOf_lt (bits : List Bool) : numberOf bits < 2 ^ bits.length := by
  induction bits with
  | nil => exact Nat.one_pos
  | cons bit bits ih =>
    rw [numberOf, length_cons, Nat.pow_succ]
    cases bit
    · rw [toNat_false, Nat.zero_mul]
      omega
    · rw [toNat_true, Nat.one_mul]
      omega

theorem msbBits_numberOf (bits : List Bool) : msbBits bits.length (numberOf bits) = bits := by
  induction bits with
  | nil => rfl
  | cons bit bits ih =>
    have hlt := numberOf_lt bits
    rw [length_cons, msbBits, numberOf]
    congr 1
    · cases bit
      · rw [toNat_false, Nat.zero_mul, Nat.zero_add, Nat.testBit_lt_two_pow hlt]
      · rw [toNat_true, Nat.one_mul, Nat.testBit_two_pow_add_eq, Nat.testBit_lt_two_pow hlt,
          Bool.not_false]
    · rw [← msbBits_mod, Nat.mul_comm, Nat.mul_add_mod, msbBits_mod, ih]

/-- A number put above `b` bits of another. -/
theorem msbBits_above (a b : Nat) {low : Nat} (high : Nat) (hlow : low < 2 ^ b) :
    msbBits (a + b) (high <<< b ||| low) = msbBits a high ++ msbBits b low := by
  rw [msbBits_add]
  congr 1
  · rw [← Nat.shiftLeft_add_eq_or_of_lt hlow, Nat.shiftLeft_eq, Nat.shiftRight_eq_div_pow,
      Nat.mul_comm, Nat.mul_add_div (Nat.two_pow_pos b), Nat.div_eq_of_lt hlow, Nat.add_zero]
  · rw [← Nat.shiftLeft_add_eq_or_of_lt hlow, Nat.shiftLeft_eq, ← msbBits_mod,
      Nat.mul_comm, Nat.mul_add_mod, msbBits_mod]

theorem above_lt {a b high low : Nat} (hhigh : high < 2 ^ a) (hlow : low < 2 ^ b) :
    high <<< b ||| low < 2 ^ (a + b) := by
  apply Nat.or_lt_two_pow
  · rw [Nat.shiftLeft_eq, Nat.pow_add]
    exact Nat.mul_lt_mul_of_pos_right hhigh (Nat.two_pow_pos b)
  · exact Nat.lt_of_lt_of_le hlow (Nat.pow_le_pow_right (by decide) (Nat.le_add_left b a))

end Msb

section Bytes

variable (bytes more : List UInt8)

@[simp] theorem length_bitsOfBytes : (bitsOfBytes bytes).length = 8 * bytes.length := by
  induction bytes with
  | nil => rfl
  | cons byte bytes ih =>
    rw [bitsOfBytes, flatMap_cons, length_append, length_msbBits, ← bitsOfBytes, ih,
      length_cons, Nat.mul_succ, Nat.add_comm]

theorem bitsOfBytes_append : bitsOfBytes (bytes ++ more) = bitsOfBytes bytes ++ bitsOfBytes more :=
  flatMap_append

theorem bitsOfBytes_singleton (byte : UInt8) : bitsOfBytes [byte] = msbBits 8 byte.toNat :=
  flatMap_singleton ..

theorem bitsOfBytes_cons (byte : UInt8) :
    bitsOfBytes (byte :: bytes) = msbBits 8 byte.toNat ++ bitsOfBytes bytes :=
  flatMap_cons ..

/-- The bits tell the bytes. -/
theorem bitsOfBytes_injective : Function.Injective bitsOfBytes := by
  intro bytes more h
  have hlength := congrArg List.length h
  induction bytes generalizing more with
  | nil => exact (eq_nil_of_length_eq_zero (by simpa using hlength.symm)).symm
  | cons byte bytes ih =>
    cases more with
    | nil => simp at hlength
    | cons byte' more =>
      obtain ⟨hbyte, hrest⟩ := append_inj h (by rw [length_msbBits, length_msbBits])
      have hsame : byte.toNat = byte'.toNat := by
        rw [eq_of_msbBits byte.toNat_lt hbyte, Nat.mod_eq_of_lt byte'.toNat_lt]
      rw [UInt8.toNat_inj.mp hsame, ih hrest (by simpa using hlength)]

theorem getElem?_bitsOfBytes (w : Nat) {k : Nat} (hk : k < 8) :
    (bitsOfBytes bytes)[8 * w + k]? = bytes[w]?.map fun byte => byte.toNat.testBit (7 - k) := by
  induction bytes generalizing w with
  | nil => rfl
  | cons byte bytes ih =>
    rw [bitsOfBytes_cons]
    cases w with
    | zero =>
      rw [getElem?_append_left (by rw [length_msbBits]; omega), Nat.mul_zero, Nat.zero_add,
        getElem?_msbBits, if_pos hk]
      rfl
    | succ w =>
      rw [getElem?_append_right (by rw [length_msbBits]; omega), length_msbBits,
        getElem?_cons_succ, ← ih w]
      congr 1
      omega

@[simp] theorem length_bytesOf (n v : Nat) : (bytesOf n v).length = n := by
  induction n generalizing v with
  | zero => rfl
  | succ n ih => rw [bytesOf, length_cons, ih]

/-- Memory gives back the low bytes of what was stored. -/
theorem valueOf_bytesOf (n v : Nat) : valueOf (bytesOf n v) = v % 256 ^ n := by
  induction n generalizing v with
  | zero => rw [bytesOf, valueOf, Nat.pow_zero, Nat.mod_one]
  | succ n ih =>
    rw [bytesOf, valueOf, ih, UInt8.toNat_ofNat', show 2 ^ 8 = 256 from rfl, Nat.pow_succ',
      Nat.mod_mul]

/-- The bytes of the number that some bytes are. -/
theorem bytesOf_valueOf : bytesOf bytes.length (valueOf bytes) = bytes := by
  induction bytes with
  | nil => rfl
  | cons byte bytes ih =>
    have hbyte := byte.toNat_lt
    have hlow : UInt8.ofNat (valueOf (byte :: bytes)) = byte := by
      apply UInt8.toNat_inj.mp
      rw [UInt8.toNat_ofNat', valueOf]
      omega
    have hhigh : valueOf (byte :: bytes) / 256 = valueOf bytes := by
      rw [valueOf]
      omega
    rw [length_cons, bytesOf, hlow, hhigh, ih]

theorem valueOf_lt : valueOf bytes < 256 ^ bytes.length := by
  induction bytes with
  | nil => exact Nat.one_pos
  | cons byte bytes ih =>
    have hbyte := byte.toNat_lt
    rw [valueOf, length_cons, Nat.pow_succ']
    omega

end Bytes

end LegionServer.Library
