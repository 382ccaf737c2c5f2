import LegionServer.Reference.PacketFrames

/-!
# Rounds of the read handler

What one round makes of the bytes that the header buffer, the packet buffer and the read buffer hold
together.
-/
namespace LegionServer.Source.Network
open Library Reference List MessageBuffer

variable {σ : Type} {h : Handlers σ} {s : WorldSocket σ} {b r : MessageBuffer}
  {got bytes pending header : List UInt8}

theorem fill_spec (hb : b.Active got) (hrpos : b.rpos = 0) (hr : r.Active bytes) :
    ∃ b', b.write (r.readPointer.take (min r.getActiveSize b.getRemainingSpace)) = some b' ∧
      b'.Active ((got ++ bytes).take b.storage.length) ∧ b'.rpos = 0 ∧
      b'.storage.length = b.storage.length ∧
      (r.readCompleted (min r.getActiveSize b.getRemainingSpace)).Active
        ((got ++ bytes).drop b.storage.length) := by
  have hwpos := hb.wpos
  have hfits := hb.fits
  rw [hr.getActiveSize, hb.getRemainingSpace]
  have hn : (bytes.take (min bytes.length (b.storage.length - b.wpos))).length =
      min bytes.length (b.storage.length - b.wpos) := by
    rw [length_take]
    omega
  have hsplit : r.Active (bytes.take (min bytes.length (b.storage.length - b.wpos)) ++
      bytes.drop (min bytes.length (b.storage.length - b.wpos))) := by
    rwa [take_append_drop]
  have htaken := hsplit.take_readPointer
  have hread := hsplit.readCompleted
  rw [hn] at htaken hread
  rw [htaken]
  obtain ⟨b', hwrite, hactive, hlength, hsame⟩ := hb.write
    (bytes.take (min bytes.length (b.storage.length - b.wpos))) (by rw [hn]; omega)
  have htake : (got ++ bytes).take b.storage.length =
      got ++ bytes.take (min bytes.length (b.storage.length - b.wpos)) := by
    rw [take_append, take_of_length_le (by omega), Nat.min_comm, ← take_eq_take_min]
    congr 2
    omega
  have hdrop : (got ++ bytes).drop b.storage.length =
      bytes.drop (min bytes.length (b.storage.length - b.wpos)) := by
    rw [drop_append, drop_eq_nil_of_le (by omega), nil_append]
    rcases Nat.le_total bytes.length (b.storage.length - b.wpos) with hle | hle
    · rw [Nat.min_eq_left hle, drop_eq_nil_of_le (by omega), drop_length]
    · rw [Nat.min_eq_right hle]
      congr 1
      omega
  rw [htake, hdrop]
  exact ⟨b', hwrite, hactive, hsame.trans hrpos, hlength, hread⟩

theorem space_of_filled {capacity : Nat} (hb : b.Active (bytes.take capacity)) (hrpos : b.rpos = 0)
    (hcapacity : b.storage.length = capacity) : b.getRemainingSpace > 0 ↔ bytes.length < capacity := by
  have hwpos := hb.wpos
  rw [length_take] at hwpos
  rw [hb.getRemainingSpace]
  omega

theorem fillHeader_spec (hb : s.headerBuffer.Active got) (hrpos : s.headerBuffer.rpos = 0)
    (hcapacity : s.headerBuffer.storage.length = 20) (hr : s.readBuffer.Active bytes) :
    ∃ headerBuffer readBuffer, s.fillHeader =
        .ok (decide (20 ≤ (got ++ bytes).length), { s with headerBuffer, readBuffer }) ∧
      headerBuffer.Active ((got ++ bytes).take 20) ∧ headerBuffer.rpos = 0 ∧
      headerBuffer.storage.length = 20 ∧ readBuffer.Active ((got ++ bytes).drop 20) ∧
      readBuffer.storage = s.readBuffer.storage := by
  obtain ⟨b', hwrite, hactive, hrpos', hlength, hread⟩ := fill_spec hb hrpos hr
  rw [hcapacity] at hactive hlength hread
  refine ⟨b', _, ?_, hactive, hrpos', hlength, hread, rfl⟩
  have hspace := space_of_filled hactive hrpos' hlength
  simp only [WorldSocket.fillHeader, hwrite, WorldSocket.orFault, bind, Except.bind]
  by_cases hfull : (got ++ bytes).length < 20
  · have hempty : (got ++ bytes).drop 20 = [] := drop_eq_nil_of_le (Nat.le_of_lt hfull)
    rw [if_pos (hspace.mpr hfull), if_neg (by rw [hread.getActiveSize, hempty]; simp),
      decide_eq_false (by omega)]
  · rw [if_neg (mt hspace.mp hfull), decide_eq_true (by omega)]

theorem fillPacket_spec {size : Nat} (hb : s.packetBuffer.Active got)
    (hrpos : s.packetBuffer.rpos = 0) (hcapacity : s.packetBuffer.storage.length = size)
    (hr : s.readBuffer.Active bytes) :
    ∃ packetBuffer readBuffer, s.fillPacket =
        .ok (decide (size ≤ (got ++ bytes).length), { s with packetBuffer, readBuffer }) ∧
      packetBuffer.Active ((got ++ bytes).take size) ∧ packetBuffer.rpos = 0 ∧
      packetBuffer.storage.length = size ∧ readBuffer.Active ((got ++ bytes).drop size) ∧
      readBuffer.storage = s.readBuffer.storage := by
  obtain ⟨b', hwrite, hactive, hrpos', hlength, hread⟩ := fill_spec hb hrpos hr
  rw [hcapacity] at hactive hlength hread
  refine ⟨b', _, ?_, hactive, hrpos', hlength, hread, rfl⟩
  have hspace := space_of_filled hactive hrpos' hlength
  simp only [WorldSocket.fillPacket, hwrite, WorldSocket.orFault, bind, Except.bind]
  by_cases hfull : (got ++ bytes).length < size
  · have hempty : (got ++ bytes).drop size = [] := drop_eq_nil_of_le (Nat.le_of_lt hfull)
    rw [if_pos (hspace.mpr hfull), if_neg (by rw [hread.getActiveSize, hempty]; simp),
      decide_eq_false (by omega)]
  · rw [if_neg (mt hspace.mp hfull), decide_eq_true (by omega)]

def statusOf : ReadDataHandlerResult → Status
  | .Ok => .reading
  | .WaitingForQuery => .waitingForQuery
  | .Error => .closed

/-- The header and the packet buffer between two rounds: nothing, a part of a header, or a header
and a part of its payload. -/
inductive Receiving (h : Handlers σ) (s : WorldSocket σ) : List UInt8 → Prop
  | header {pending : List UInt8} (hlength : pending.length < 20)
    (hheader : s.headerBuffer.Active pending) (hrpos : s.headerBuffer.rpos = 0)
    (hcapacity : s.headerBuffer.storage.length = 20) (hpacket : s.packetBuffer.Active [])
    (hprpos : s.packetBuffer.rpos = 0) : Receiving h s pending
  | payload {header got : List UInt8} (hheader : s.headerBuffer.Active header)
    (hlength : header.length = 20) (hrpos : s.headerBuffer.rpos = 0)
    (hcapacity : s.headerBuffer.storage.length = 20)
    (hpacket : s.packetBuffer.Active (header.drop 16 ++ got)) (hprpos : s.packetBuffer.rpos = 0)
    (hpcapacity : s.packetBuffer.storage.length = headerSize header)
    (hadmits : h.admits s.state header = true)
    (hunread : 4 + got.length < headerSize header) : Receiving h s (header ++ got)

variable {s₁ : WorldSocket σ}

theorem Receiving.of_eq (hs : Receiving h s₁ pending) (hstate : s₁.state = s.state)
    (hheader : s₁.headerBuffer = s.headerBuffer) (hpacket : s₁.packetBuffer = s.packetBuffer) :
    Receiving h s pending := by
  cases hs with
  | header hlength hactive hrpos hcapacity hpacket' hprpos =>
    rw [hheader] at hactive hrpos hcapacity
    rw [hpacket] at hpacket' hprpos
    exact .header hlength hactive hrpos hcapacity hpacket' hprpos
  | payload hactive hlength hrpos hcapacity hpacket' hprpos hpcapacity hadmits hunread =>
    rw [hheader] at hactive hrpos hcapacity
    rw [hpacket] at hpacket' hprpos hpcapacity
    exact .payload hactive hlength hrpos hcapacity hpacket' hprpos hpcapacity (hstate ▸ hadmits)
      hunread

theorem storage_of_full (hb : b.Active bytes) (hrpos : b.rpos = 0)
    (hfull : b.storage.length = bytes.length) : b.storage = bytes := by
  have hbytes := hb.bytes
  rwa [MessageBuffer.readPointer, hrpos, drop_zero, ← hfull, take_length] at hbytes

theorem checkPayload_spec {size : Nat} (hb : s.packetBuffer.Active got)
    (hrpos : s.packetBuffer.rpos = 0) (hcapacity : s.packetBuffer.storage.length = size)
    (hr : s.readBuffer.Active bytes) :
    ∃ packetBuffer readBuffer,
      s.checkPayload = .ok (decide (size ≤ (got ++ bytes).length), { s with packetBuffer, readBuffer }) ∧
      packetBuffer.Active ((got ++ bytes).take size) ∧ packetBuffer.rpos = 0 ∧
      packetBuffer.storage.length = size ∧ readBuffer.Active ((got ++ bytes).drop size) ∧
      readBuffer.storage = s.readBuffer.storage := by
  rw [WorldSocket.checkPayload]
  split
  · exact fillPacket_spec hb hrpos hcapacity hr
  rename_i hfull
  have hwpos := hb.wpos
  have hfits := hb.fits
  rw [hb.getRemainingSpace] at hfull
  have hsize : size = got.length := by omega
  refine ⟨s.packetBuffer, s.readBuffer, ?_, ?_, hrpos, hcapacity, ?_, rfl⟩
  · rw [decide_eq_true (by rw [length_append]; omega)]
  · rwa [hsize, take_left]
  · rwa [hsize, drop_left]

theorem readPayload_spec (hheader : s.headerBuffer.Active header) (hlength : header.length = 20)
    (hrpos : s.headerBuffer.rpos = 0) (hcapacity : s.headerBuffer.storage.length = 20)
    (hpacket : s.packetBuffer.Active (header.drop 16 ++ got)) (hprpos : s.packetBuffer.rpos = 0)
    (hpcapacity : s.packetBuffer.storage.length = headerSize header)
    (hadmits : h.admits s.state header = true) (hr : s.readBuffer.Active bytes)
    (hstatus : s.status = .reading) :
    ∃ s', s.readPayload h = .ok s' ∧ s'.readBuffer.storage = s.readBuffer.storage ∧
      if 4 + (got ++ bytes).length < headerSize header then
        Receiving h s' (header ++ (got ++ bytes)) ∧ s'.readBuffer.Active [] ∧
          s'.state = s.state ∧ s'.status = .reading ∧ s'.handed = s.handed
      else
        let packet : Packet := ⟨headerSize header, headerTag header,
          (header.drop 16 ++ (got ++ bytes)).take (headerSize header)⟩
        Receiving h s' [] ∧
          s'.readBuffer.Active ((header.drop 16 ++ (got ++ bytes)).drop (headerSize header)) ∧
          s'.state = (h.readData s.state packet).1 ∧
          s'.status = statusOf (h.readData s.state packet).2 ∧ s'.handed = s.handed ++ [packet] := by
  have htotal : (header.drop 16 ++ got ++ bytes).length = 4 + (got ++ bytes).length := by
    simp only [length_append, length_drop]
    omega
  obtain ⟨packetBuffer, readBuffer, hfill, hactive, hprpos', hpcapacity', hread, hstorage⟩ :=
    checkPayload_spec hpacket hprpos hpcapacity hr
  simp only [WorldSocket.readPayload, hfill, bind, Except.bind]
  rw [append_assoc] at hactive hread htotal
  rw [append_assoc, htotal]
  by_cases hunread : 4 + (got ++ bytes).length < headerSize header
  · simp only [decide_eq_false (Nat.not_le.mpr hunread), Bool.not_false, if_true, hunread]
    rw [take_of_length_le (by omega)] at hactive
    rw [drop_eq_nil_of_le (by omega)] at hread
    exact ⟨_, rfl, hstorage, .payload hheader hlength hrpos hcapacity hactive hprpos' hpcapacity'
      hadmits hunread, hread, rfl, hstatus, rfl⟩
  · simp only [decide_eq_true (Nat.not_lt.mp hunread), Bool.not_true, Bool.false_eq_true, if_false,
      hunread]
    have hhead : s.headerBuffer.readPointer = header := by
      rw [readPointer, hrpos, drop_zero]
      exact storage_of_full hheader hrpos (by omega)
    have hdata := storage_of_full hactive hprpos' (by rw [length_take]; omega)
    simp only [WorldSocket.handlePayload, WorldSocket.readDataHandler, release, hhead,
      hdata]
    have hreset : s.headerBuffer.reset.Active [] := active_reset _
    have hnone : (⟨0, 0, []⟩ : MessageBuffer).Active [] := active_ofSize 0
    cases (h.readData s.state ⟨headerSize header, headerTag header,
        (header.drop 16 ++ (got ++ bytes)).take (headerSize header)⟩).2 with
    | Ok => exact ⟨_, rfl, hstorage, .header (by simp) hreset rfl hcapacity hnone rfl, hread, rfl,
        hstatus, rfl⟩
    | Error => exact ⟨_, rfl, hstorage, .header (by simp) hreset rfl hcapacity hnone rfl, hread, rfl,
        rfl, rfl⟩
    | WaitingForQuery => exact ⟨_, rfl, hstorage, .header (by simp) hreset rfl hcapacity hnone rfl,
        hread, rfl, rfl, rfl⟩

/-- What a round makes of bytes. -/
inductive Round where
  | incomplete
  | malformed
  /-- the announced size has no room for the part of the payload that came with the header -/
  | overflow
  | packet (packet : Packet) (rest : List UInt8)

def roundOf (h : Handlers σ) (state : σ) (bytes : List UInt8) : Round :=
  if bytes.length < 20 then .incomplete
  else if !h.admits state bytes then .malformed
  else if headerSize bytes < 4 then .overflow
  else if bytes.length < 16 + headerSize bytes then .incomplete
  else .packet ⟨headerSize bytes, headerTag bytes, (bytes.drop 16).take (headerSize bytes)⟩
    (bytes.drop (16 + headerSize bytes))

def AfterRound (h : Handlers σ) (s : WorldSocket σ) (bytes : List UInt8)
    (result : Except Fault (WorldSocket σ)) : Prop :=
  match roundOf h s.state bytes with
  | .overflow => result = .error .outOfBounds
  | .malformed => ∃ s', result = .ok s' ∧ s'.status = .closed ∧ s'.handed = s.handed
  | .incomplete => ∃ s', result = .ok s' ∧ s'.readBuffer.storage = s.readBuffer.storage ∧
      Receiving h s' bytes ∧ s'.readBuffer.Active [] ∧ s'.state = s.state ∧ s'.status = .reading ∧
      s'.handed = s.handed
  | .packet packet rest => ∃ s', result = .ok s' ∧ s'.readBuffer.storage = s.readBuffer.storage ∧
      Receiving h s' [] ∧ s'.readBuffer.Active rest ∧ s'.state = (h.readData s.state packet).1 ∧
      s'.status = statusOf (h.readData s.state packet).2 ∧ s'.handed = s.handed ++ [packet]

theorem roundOf_header (hlength : header.length = 20) (hadmits : h.admits s.state header = true)
    (hsize : 4 ≤ headerSize header) : roundOf h s.state (header ++ bytes) =
      if 4 + bytes.length < headerSize header then .incomplete
      else .packet ⟨headerSize header, headerTag header,
          (header.drop 16 ++ bytes).take (headerSize header)⟩
        ((header.drop 16 ++ bytes).drop (headerSize header)) := by
  rw [roundOf, headerSize_append (by omega), headerTag_append (by omega),
    admits_append (by omega) (by omega), length_append, if_neg (by omega), hadmits,
    if_neg (by simp), if_neg (by omega), ← drop_drop, drop_append_of_le_length (by omega)]
  congr 1
  rw [hlength, eq_iff_iff]
  omega

theorem readPayload_round (hheader : s.headerBuffer.Active header) (hlength : header.length = 20)
    (hrpos : s.headerBuffer.rpos = 0) (hcapacity : s.headerBuffer.storage.length = 20)
    (hpacket : s.packetBuffer.Active (header.drop 16 ++ got)) (hprpos : s.packetBuffer.rpos = 0)
    (hpcapacity : s.packetBuffer.storage.length = headerSize header)
    (hadmits : h.admits s.state header = true) (hr : s.readBuffer.Active bytes)
    (hstatus : s.status = .reading) :
    AfterRound h s (header ++ (got ++ bytes)) (s.readPayload h) := by
  have hsize : 4 ≤ headerSize header := by
    have hwpos := hpacket.wpos
    have hfits := hpacket.fits
    rw [length_append, length_drop] at hwpos
    omega
  obtain ⟨s', hs', hstorage, hcases⟩ := readPayload_spec hheader hlength hrpos hcapacity hpacket
    hprpos hpcapacity hadmits hr hstatus
  rw [AfterRound, roundOf_header hlength hadmits hsize, hs']
  split at hcases
  · rename_i hunread
    rw [if_pos hunread]
    exact ⟨s', rfl, hstorage, hcases⟩
  · rename_i hcomplete
    rw [if_neg hcomplete]
    exact ⟨s', rfl, hstorage, hcases⟩

theorem AfterRound.of_eq {result : Except Fault (WorldSocket σ)}
    (hround : AfterRound h s₁ bytes result) (hstate : s₁.state = s.state)
    (hstorage : s₁.readBuffer.storage = s.readBuffer.storage) (hhanded : s₁.handed = s.handed) :
    AfterRound h s bytes result := by
  rwa [AfterRound, hstate, hstorage, hhanded] at hround

section
variable (hheader : s.headerBuffer.Active header) (hlength : header.length = 20)
  (hrpos : s.headerBuffer.rpos = 0) (hcapacity : s.headerBuffer.storage.length = 20)
  (hpacket : s.packetBuffer.Active []) (hprpos : s.packetBuffer.rpos = 0)
include hheader hlength hrpos hcapacity hpacket hprpos

theorem readHeaderHandler_spec :
    (h.admits s.state header = false → s.readHeaderHandler h = .ok (false, s)) ∧
    (h.admits s.state header = true → headerSize header < 4 →
      s.readHeaderHandler h = .error .outOfBounds) ∧
    (h.admits s.state header = true → 4 ≤ headerSize header → ∃ packetBuffer,
      s.readHeaderHandler h = .ok (true, { s with packetBuffer }) ∧
        packetBuffer.Active (header.drop 16) ∧ packetBuffer.rpos = 0 ∧
        packetBuffer.storage.length = headerSize header) := by
  have hhead : s.headerBuffer.readPointer = header := by
    rw [readPointer, hrpos, drop_zero]
    exact storage_of_full hheader hrpos (by omega)
  have hopcode : (header.drop PACKET_HEADER_SIZE).take 4 = header.drop 16 :=
    take_of_length_le (by rw [length_drop, PACKET_HEADER_SIZE]; omega)
  have hfour : (header.drop 16).length = 4 := by
    rw [length_drop]
    omega
  have hwpos : s.packetBuffer.wpos = 0 := by
    rw [hpacket.wpos, hprpos]
    rfl
  rw [WorldSocket.readHeaderHandler, hheader.getActiveSize, hlength,
    if_neg (by simp [INCOMING_PACKET_HEADER_SIZE])]
  simp only [hhead, hopcode]
  refine ⟨fun hadmits => ?_, fun hadmits hshort => ?_, fun hadmits hroom => ?_⟩
  · rw [hadmits]
    rfl
  · have hnone : (s.packetBuffer.resize (headerSize header)).write (header.drop 16) = none := by
      refine write_eq_none (fun hnil => ?_) ?_
      · rw [hnil] at hfour
        cases hfour
      · change _ < s.packetBuffer.wpos + _
        rw [length_resize, hwpos]
        omega
    rw [hadmits, hnone]
    rfl
  · have hresized : (s.packetBuffer.resize (headerSize header)).Active [] :=
      hpacket.resize (by omega)
    obtain ⟨packetBuffer, hwrite, hactive, hsize, hrpos'⟩ := hresized.write (header.drop 16) (by
        change s.packetBuffer.wpos + _ ≤ _
        rw [length_resize, hwpos]
        omega)
    rw [hadmits, hwrite]
    exact ⟨packetBuffer, rfl, hactive, hrpos'.trans hprpos, hsize.trans length_resize⟩

theorem readHeader_round (hr : s.readBuffer.Active bytes) (hstatus : s.status = .reading) :
    AfterRound h s (header ++ bytes) (do
      let (valid, s) ← s.readHeaderHandler h
      if !valid then .ok { s with status := .closed } else s.readPayload h) := by
  obtain ⟨hrefuses, hoverflows, hgoes⟩ :=
    readHeaderHandler_spec (h := h) hheader hlength hrpos hcapacity hpacket hprpos
  have hadmits : h.admits s.state (header ++ bytes) = h.admits s.state header :=
    admits_append (by omega) (by omega)
  have hsize : headerSize (header ++ bytes) = headerSize header := headerSize_append (by omega)
  have htwenty : ¬(header ++ bytes).length < 20 := by
    rw [length_append]
    omega
  cases hvalid : h.admits s.state header with
  | false =>
    have hround : roundOf h s.state (header ++ bytes) = .malformed := by
      rw [roundOf, if_neg htwenty, hadmits, hvalid, if_pos (by simp)]
    rw [AfterRound, hround, hrefuses hvalid]
    exact ⟨_, rfl, rfl, rfl⟩
  | true =>
    by_cases hshort : headerSize header < 4
    · have hround : roundOf h s.state (header ++ bytes) = .overflow := by
        rw [roundOf, if_neg htwenty, hadmits, hvalid, if_neg (by simp), hsize, if_pos hshort]
      rw [AfterRound, hround, hoverflows hvalid hshort]
      rfl
    · obtain ⟨packetBuffer, hread, hactive, hprpos', hpcapacity⟩ := hgoes hvalid (Nat.not_lt.mp hshort)
      simp only [hread, bind, Except.bind, Bool.not_true, Bool.false_eq_true, if_false]
      have hround : AfterRound h { s with packetBuffer } (header ++ ([] ++ bytes))
          ({ s with packetBuffer }.readPayload h) :=
        readPayload_round hheader hlength hrpos hcapacity (by simpa using hactive) hprpos' hpcapacity
          hvalid hr hstatus
      exact hround.of_eq rfl rfl rfl

end

theorem readRound_spec (hs : Receiving h s pending) (hr : s.readBuffer.Active bytes)
    (hstatus : s.status = .reading) : AfterRound h s (pending ++ bytes) (s.readRound h) := by
  cases hs with
  | payload hheader hlength hrpos hcapacity hpacket hprpos hpcapacity hadmits hunread =>
    have hfull : ¬s.headerBuffer.getRemainingSpace > 0 := by
      have hwpos := hheader.wpos
      rw [hheader.getRemainingSpace]
      omega
    rw [WorldSocket.readRound, if_neg hfull, append_assoc]
    exact readPayload_round hheader hlength hrpos hcapacity hpacket hprpos hpcapacity hadmits hr
      hstatus
  | header hlength hheader hrpos hcapacity hpacket hprpos =>
    have hspace : s.headerBuffer.getRemainingSpace > 0 := by
      have hwpos := hheader.wpos
      rw [hheader.getRemainingSpace]
      omega
    obtain ⟨headerBuffer, readBuffer, hfill, hactive, hrpos', hcapacity', hread, hstorage⟩ :=
      fillHeader_spec hheader hrpos hcapacity hr
    rw [WorldSocket.readRound, if_pos hspace]
    simp only [hfill, bind, Except.bind]
    by_cases hunread : (pending ++ bytes).length < 20
    · simp only [decide_eq_false (Nat.not_le.mpr hunread), Bool.not_false, if_true]
      rw [take_of_length_le (by omega)] at hactive
      rw [drop_eq_nil_of_le (by omega)] at hread
      rw [AfterRound, roundOf, if_pos hunread]
      exact ⟨_, rfl, hstorage, .header hunread hactive hrpos' hcapacity' hpacket hprpos, hread, rfl,
        hstatus, rfl⟩
    · simp only [decide_eq_true (Nat.not_lt.mp hunread), Bool.not_true, Bool.false_eq_true,
        if_false]
      have hround : AfterRound h { s with headerBuffer, readBuffer }
          ((pending ++ bytes).take 20 ++ (pending ++ bytes).drop 20) _ :=
        readHeader_round hactive (by rw [length_take]; omega) hrpos' hcapacity' hpacket hprpos
          hread hstatus
      rw [take_append_drop] at hround
      exact hround.of_eq rfl hstorage rfl

end LegionServer.Source.Network
