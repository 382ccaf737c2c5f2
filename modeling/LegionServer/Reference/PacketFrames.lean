import LegionServer.Source.Network.WorldSocketReading

/-!
# The packets of a stream

A packet is a size of four bytes, a tag of twelve and as many bytes as the size says, the
first of which are the encrypted opcode.
-/
namespace LegionServer.Reference
open Library Source.Network List

inductive Next where
  | incomplete
  | malformed
  | packet (packet : Packet) (rest : List UInt8)
  deriving DecidableEq, Repr

variable {σ : Type} {h : Handlers σ} {state : σ} {bytes more rest : List UInt8} {packet : Packet}

def nextPacket (h : Handlers σ) (state : σ) (bytes : List UInt8) : Next :=
  if bytes.length < 16 then .incomplete
  else if 0x10000 ≤ headerSize bytes ∧ bytes.length < 20 then .incomplete
  else if !h.admits state bytes then .malformed
  else if bytes.length < 16 + headerSize bytes then .incomplete
  else .packet ⟨headerSize bytes, headerTag bytes, (bytes.drop 16).take (headerSize bytes)⟩
    (bytes.drop (16 + headerSize bytes))

theorem nextPacket_eq_packet (hnext : nextPacket h state bytes = .packet packet rest) :
    16 + headerSize bytes ≤ bytes.length ∧ h.admits state bytes = true ∧
      (0x10000 ≤ headerSize bytes → 20 ≤ bytes.length) ∧
      packet = ⟨headerSize bytes, headerTag bytes, (bytes.drop 16).take (headerSize bytes)⟩ ∧
      rest = bytes.drop (16 + headerSize bytes) := by
  rw [nextPacket] at hnext
  split at hnext
  · cases hnext
  split at hnext
  · cases hnext
  split at hnext
  · cases hnext
  rename_i hadmits
  split at hnext
  · cases hnext
  rename_i hlength
  cases hnext
  refine ⟨Nat.not_lt.mp hlength, by simpa using hadmits, fun hlarge => ?_, rfl, rfl⟩
  omega

theorem length_rest_lt (hnext : nextPacket h state bytes = .packet packet rest) :
    rest.length < bytes.length := by
  obtain ⟨hlength, -, -, -, rfl⟩ := nextPacket_eq_packet hnext
  rw [length_drop]
  omega

/-- The packets of a stream as each is given to the handlers, up to one that they refuse. -/
def packetsOf (h : Handlers σ) (state : σ) (bytes : List UInt8) : List Packet :=
  match hnext : nextPacket h state bytes with
  | .incomplete => []
  | .malformed => []
  | .packet packet rest =>
    have := length_rest_lt hnext
    match (h.readData state packet).2 with
    | .Error => [packet]
    | _ => packet :: packetsOf h (h.readData state packet).1 rest
termination_by bytes.length

theorem packetsOf_incomplete (hnext : nextPacket h state bytes = .incomplete) :
    packetsOf h state bytes = [] := by
  rw [packetsOf]
  split
  · rfl
  · rfl
  · simp_all

theorem packetsOf_malformed (hnext : nextPacket h state bytes = .malformed) :
    packetsOf h state bytes = [] := by
  rw [packetsOf]
  split
  · rfl
  · rfl
  · simp_all

theorem packetsOf_refused (hnext : nextPacket h state bytes = .packet packet rest)
    (hdata : (h.readData state packet).2 = .Error) : packetsOf h state bytes = [packet] := by
  rw [packetsOf]
  split
  · simp_all
  · simp_all
  · rename_i hsame
    rw [hnext] at hsame
    cases hsame
    rw [hdata]

theorem packetsOf_packet (hnext : nextPacket h state bytes = .packet packet rest)
    (hdata : (h.readData state packet).2 ≠ .Error) :
    packetsOf h state bytes = packet :: packetsOf h (h.readData state packet).1 rest := by
  rw [packetsOf]
  split
  · simp_all
  · simp_all
  rename_i hsame
  rw [hnext] at hsame
  cases hsame
  cases hresult : (h.readData state packet).2 with
  | Error => exact absurd hresult hdata
  | Ok => rfl
  | WaitingForQuery => rfl

theorem headerSize_append (hlength : 4 ≤ bytes.length) :
    headerSize (bytes ++ more) = headerSize bytes := by
  change (UInt32.ofNat (valueOf ((bytes ++ more).take 4))).toNat =
    (UInt32.ofNat (valueOf (bytes.take 4))).toNat
  rw [take_append_of_le_length hlength]

theorem headerTag_append (hlength : 16 ≤ bytes.length) :
    headerTag (bytes ++ more) = headerTag bytes := by
  rw [headerTag, headerTag, drop_append_of_le_length (by omega), take_append_of_le_length
    (by rw [length_drop]; omega)]

theorem headerOpcode_append (hlength : 20 ≤ bytes.length) :
    headerOpcode (bytes ++ more) = headerOpcode bytes := by
  change UInt32.ofNat (valueOf (((bytes ++ more).drop 16).take 4)) =
    UInt32.ofNat (valueOf ((bytes.drop 16).take 4))
  rw [drop_append_of_le_length (by omega), take_append_of_le_length (by rw [length_drop]; omega)]

theorem admits_append (hlength : 4 ≤ bytes.length)
    (hlarge : 0x10000 ≤ headerSize bytes → 20 ≤ bytes.length) :
    h.admits state (bytes ++ more) = h.admits state bytes := by
  rw [Handlers.admits, Handlers.admits, headerSize_append hlength]
  split
  · rfl
  · rename_i hsize
    rw [headerOpcode_append (hlarge (Nat.not_lt.mp hsize))]

theorem nextPacket_append (hnext : nextPacket h state bytes = .packet packet rest) :
    nextPacket h state (bytes ++ more) = .packet packet (rest ++ more) := by
  obtain ⟨hlength, hadmits, hlarge, rfl, rfl⟩ := nextPacket_eq_packet hnext
  rw [nextPacket, headerSize_append (by omega), headerTag_append (by omega),
    admits_append (by omega) hlarge, length_append, if_neg (by omega), if_neg (by omega),
    hadmits, if_neg (by simp), if_neg (by omega), drop_append_of_le_length (by omega),
    drop_append_of_le_length hlength, take_append_of_le_length (by rw [length_drop]; omega)]

theorem nextPacket_append_malformed (hnext : nextPacket h state bytes = .malformed) :
    nextPacket h state (bytes ++ more) = .malformed := by
  rw [nextPacket] at hnext
  split at hnext
  · cases hnext
  split at hnext
  · cases hnext
  split at hnext
  · rename_i hadmits
    rw [nextPacket, headerSize_append (by omega), admits_append (by omega) (by omega),
      length_append, if_neg (by omega), if_neg (by omega), if_pos hadmits]
  split at hnext
  · cases hnext
  · cases hnext

end LegionServer.Reference
