import LegionServer.Source.Network.ReadRounds

/-!
# Framing of the world socket

However a stream is cut into chunks, the read handler hands over the packets of the stream, without
a write outside its buffers and without a failed assertion, as long as no packet has a size of less
than four bytes; such a packet is one that it cannot take.
-/
namespace LegionServer.Guarantees.PacketFraming
open Library Reference Source.Network

variable {σ : Type} {h : Handlers σ} {state : σ} {bytes more rest pending chunk : List UInt8}
  {packet : Packet} {s s' : WorldSocket σ} {handed : List Packet}

theorem next_of_round_packet (hround : roundOf h state bytes = .packet packet rest) :
    nextPacket h state bytes = .packet packet rest ∧ 4 ≤ packet.size ∧ 20 ≤ bytes.length := by
  rw [roundOf] at hround
  split at hround
  · cases hround
  rename_i hheader
  split at hround
  · cases hround
  rename_i hadmits
  split at hround
  · cases hround
  rename_i hsize
  split at hround
  · cases hround
  rename_i hlength
  cases hround
  refine ⟨?_, Nat.not_lt.mp hsize, Nat.not_lt.mp hheader⟩
  rw [nextPacket, if_neg (by omega), if_neg (by omega), if_neg hadmits, if_neg hlength]

theorem next_of_round_malformed (hround : roundOf h state bytes = .malformed) :
    nextPacket h state bytes = .malformed := by
  rw [roundOf] at hround
  split at hround
  · cases hround
  split at hround
  · rename_i hadmits
    rw [nextPacket, if_neg (by omega), if_neg (by omega), if_pos hadmits]
  split at hround
  · cases hround
  split at hround
  · cases hround
  · cases hround

theorem next_of_round_overflow (hround : roundOf h state bytes = .overflow) :
    ∃ packet rest, nextPacket h state bytes = .packet packet rest ∧ packet.size < 4 := by
  rw [roundOf] at hround
  split at hround
  · cases hround
  split at hround
  · cases hround
  rename_i hadmits
  split at hround
  · rename_i hsize
    refine ⟨⟨headerSize bytes, headerTag bytes, (bytes.drop 16).take (headerSize bytes)⟩,
      bytes.drop (16 + headerSize bytes), ?_, hsize⟩
    rw [nextPacket, if_neg (by omega), if_neg (by omega), if_neg hadmits, if_neg (by omega)]
  split at hround
  · cases hround
  · cases hround

theorem next_of_round_incomplete (hround : roundOf h state bytes = .incomplete) :
    nextPacket h state bytes = .incomplete ∨
      ∃ packet rest, nextPacket h state bytes = .packet packet rest ∧ packet.size < 4 := by
  by_cases hheader : bytes.length < 20
  · by_cases hlarge : 0x10000 ≤ headerSize bytes
    · left
      rw [nextPacket]
      split
      · rfl
      · rw [if_pos ⟨hlarge, hheader⟩]
    · have hadmits : h.admits state bytes = true := by
        rw [Handlers.admits, if_pos (by omega)]
      rw [nextPacket]
      split
      · exact .inl rfl
      rw [if_neg (fun hboth => hlarge hboth.1), hadmits, if_neg (by simp)]
      split
      · exact .inl rfl
      · rename_i hlength
        exact .inr ⟨_, _, rfl, by simp only; omega⟩
  · rw [roundOf, if_neg hheader] at hround
    split at hround
    · cases hround
    rename_i hadmits
    split at hround
    · cases hround
    split at hround
    · rename_i hlength
      left
      rw [nextPacket, if_neg (by omega), if_neg (by omega), if_neg hadmits, if_pos hlength]
    · cases hround

/-- From a state and bytes, packets are handed over, after which there is another state and
there are other bytes, whatever bytes follow. -/
structure Leads (h : Handlers σ) (state : σ) (bytes : List UInt8) (handed : List Packet)
    (state' : σ) (bytes' : List UInt8) : Prop where
  packets : ∀ more, packetsOf h state (bytes ++ more) = handed ++ packetsOf h state' (bytes' ++ more)
  sizes : ∀ packet ∈ handed, 4 ≤ packet.size

/-- The packets end with these, whatever bytes follow, and none among them is short. -/
structure Closes (h : Handlers σ) (state : σ) (bytes : List UInt8) (handed : List Packet) : Prop where
  packets : ∀ more, packetsOf h state (bytes ++ more) = handed
  sizes : ∀ packet ∈ handed, 4 ≤ packet.size

def Overflows (h : Handlers σ) (state : σ) (bytes : List UInt8) : Prop :=
  ∀ more, ∃ packet ∈ packetsOf h state (bytes ++ more), packet.size < 4

theorem Leads.refl : Leads h state bytes [] state bytes where
  packets _ := rfl
  sizes := nofun

section Leads
variable {state' state'' : σ} {bytes' bytes'' : List UInt8} {handed' : List Packet}

section
variable (hleads : Leads h state bytes handed state' bytes')
include hleads

theorem Leads.trans (hnext : Leads h state' bytes' handed' state'' bytes'') :
    Leads h state bytes (handed ++ handed') state'' bytes'' where
  packets more := by rw [hleads.packets, hnext.packets, List.append_assoc]
  sizes packet hpacket := (List.mem_append.mp hpacket).elim (hleads.sizes packet) (hnext.sizes packet)

theorem Leads.closes (hnext : Closes h state' bytes' handed') :
    Closes h state bytes (handed ++ handed') where
  packets more := by rw [hleads.packets, hnext.packets]
  sizes packet hpacket := (List.mem_append.mp hpacket).elim (hleads.sizes packet) (hnext.sizes packet)

theorem Leads.overflows (hnext : Overflows h state' bytes') : Overflows h state bytes := by
  intro more
  obtain ⟨packet, hpacket, hsize⟩ := hnext more
  rw [hleads.packets]
  exact ⟨packet, List.mem_append_right _ hpacket, hsize⟩

theorem Leads.receive (chunk : List UInt8) :
    Leads h state (bytes ++ chunk) handed state' (bytes' ++ chunk) where
  packets more := by rw [List.append_assoc, List.append_assoc, hleads.packets]
  sizes := hleads.sizes

end

theorem Closes.receive (hcloses : Closes h state bytes handed) (chunk : List UInt8) :
    Closes h state (bytes ++ chunk) handed where
  packets more := by rw [List.append_assoc, hcloses.packets]
  sizes := hcloses.sizes

end Leads

theorem leads_of_packet (hround : roundOf h state bytes = .packet packet rest)
    (hdata : (h.readData state packet).2 ≠ .Error) :
    Leads h state bytes [packet] (h.readData state packet).1 rest := by
  obtain ⟨hnext, hsize, -⟩ := next_of_round_packet hround
  refine ⟨fun more => packetsOf_packet (nextPacket_append hnext) hdata, ?_⟩
  simpa using hsize

theorem closes_of_packet (hround : roundOf h state bytes = .packet packet rest)
    (hdata : (h.readData state packet).2 = .Error) : Closes h state bytes [packet] := by
  obtain ⟨hnext, hsize, -⟩ := next_of_round_packet hround
  refine ⟨fun more => packetsOf_refused (nextPacket_append hnext) hdata, ?_⟩
  simpa using hsize

theorem closes_of_malformed (hround : roundOf h state bytes = .malformed) :
    Closes h state bytes [] where
  packets _ := packetsOf_malformed (nextPacket_append_malformed (next_of_round_malformed hround))
  sizes := nofun

theorem mem_packetsOf (hnext : nextPacket h state bytes = .packet packet rest) :
    packet ∈ packetsOf h state bytes := by
  cases hdata : (h.readData state packet).2 with
  | Error =>
    rw [packetsOf_refused hnext hdata]
    exact List.mem_singleton_self _
  | Ok =>
    rw [packetsOf_packet hnext (by rw [hdata]; nofun)]
    exact List.mem_cons_self
  | WaitingForQuery =>
    rw [packetsOf_packet hnext (by rw [hdata]; nofun)]
    exact List.mem_cons_self

theorem overflows_of_round (hround : roundOf h state bytes = .overflow) : Overflows h state bytes := by
  intro more
  obtain ⟨packet, rest, hnext, hsize⟩ := next_of_round_overflow hround
  exact ⟨packet, mem_packetsOf (nextPacket_append hnext), hsize⟩

theorem round_receiving (hs : Receiving h s pending) : roundOf h s.state pending = .incomplete := by
  cases hs with
  | header hlength => rw [roundOf, if_pos hlength]
  | payload hheader hlength hrpos hcapacity hpacket hprpos hpcapacity hadmits hunread =>
    rw [roundOf_header hlength hadmits (by omega), if_pos hunread]

theorem length_rest_lt_of_receiving (hs : Receiving h s pending)
    (hround : roundOf h s.state (pending ++ bytes) = .packet packet rest) :
    rest.length < bytes.length := by
  obtain ⟨hnext, hsize, -⟩ := next_of_round_packet hround
  obtain ⟨hlength, -, -, rfl, rfl⟩ := nextPacket_eq_packet hnext
  rw [List.length_drop, List.length_append]
  rw [List.length_append] at hlength
  cases hs with
  | header hpending =>
    simp only at hsize
    omega
  | payload hheader hheaderLength hrpos hcapacity hpacket hprpos hpcapacity hadmits hunread =>
    rw [List.append_assoc, headerSize_append (by omega), List.length_append] at *
    omega

/-- Where the socket is in its stream, with at most so many bytes in the read buffer, and fewer where
it waits. -/
def Framing (h : Handlers σ) (state : σ) (stream : List UInt8) (limit : Nat) (s : WorldSocket σ) :
    Prop :=
  if s.status = .closed then Closes h state stream s.handed
  else ∃ pending bytes, Receiving h s pending ∧ s.readBuffer.Active bytes ∧
    2 ≤ s.readBuffer.storage.length ∧ Leads h state stream s.handed s.state (pending ++ bytes) ∧
    bytes.length ≤ limit ∧ (s.status = .waitingForQuery → pending = [] ∧ bytes.length < limit)

variable {stream : List UInt8}

/-- One round of the read handler. -/
theorem framing_round {limit : Nat} (hs : Framing h state stream limit s)
    (hunread : s.unread = some ()) :
    Ends (fun fault => fault = .outOfBounds ∧ Overflows h state stream) (s.readRound h) fun s' =>
      Framing h state stream limit s' ∧
        (s'.unread = some () → s'.readBuffer.getActiveSize < s.readBuffer.getActiveSize) := by
  have hreading : s.status = .reading ∧ s.readBuffer.getActiveSize > 0 := by
    rw [WorldSocket.unread] at hunread
    split at hunread
    · assumption
    · cases hunread
  obtain ⟨hstatus, hactive⟩ := hreading
  rw [Framing, if_neg (by simp [hstatus])] at hs
  obtain ⟨pending, bytes, hreceiving, hbytes, hcapacity, hleads, hlimit, -⟩ := hs
  rw [hbytes.getActiveSize] at hactive ⊢
  have hne : bytes ≠ [] := List.length_pos_iff.mp hactive
  have hround := readRound_spec hreceiving hbytes hstatus
  rw [AfterRound] at hround
  cases hcase : roundOf h s.state (pending ++ bytes) with
  | overflow =>
    rw [hcase] at hround
    rw [hround]
    exact ⟨rfl, hleads.overflows (overflows_of_round hcase)⟩
  | malformed =>
    rw [hcase] at hround
    obtain ⟨s', hs', hclosed, hhanded⟩ := hround
    rw [hs']
    refine ⟨?_, fun hunread' => ?_⟩
    · rw [Framing, if_pos hclosed, hhanded]
      simpa using hleads.closes (closes_of_malformed hcase)
    · rw [WorldSocket.unread, if_neg (by simp [hclosed])] at hunread'
      cases hunread'
  | incomplete =>
    rw [hcase] at hround
    obtain ⟨s', hs', hstorage, hreceiving', hactive', hstate', hstatus', hhanded'⟩ := hround
    rw [hs']
    refine ⟨?_, fun _ => by rw [hactive'.getActiveSize]; exact hactive⟩
    rw [Framing, if_neg (by simp [hstatus'])]
    refine ⟨_, [], hreceiving', hactive', hstorage ▸ hcapacity, ?_, Nat.zero_le _, ?_⟩
    · rw [hhanded', hstate', List.append_nil]
      exact hleads
    · simp [hstatus']
  | packet packet rest =>
    rw [hcase] at hround
    obtain ⟨s', hs', hstorage, hreceiving', hactive', hstate', hstatus', hhanded'⟩ := hround
    have hrest := length_rest_lt_of_receiving hreceiving hcase
    rw [hs']
    refine ⟨?_, fun _ => by rw [hactive'.getActiveSize]; exact hrest⟩
    rw [Framing]
    split
    · rename_i hclosed
      have hdata : (h.readData s.state packet).2 = .Error := by
        rw [hstatus'] at hclosed
        cases hresult : (h.readData s.state packet).2 with
        | Error => rfl
        | Ok => rw [hresult] at hclosed; cases hclosed
        | WaitingForQuery => rw [hresult] at hclosed; cases hclosed
      rw [hhanded']
      exact hleads.closes (closes_of_packet hcase hdata)
    · rename_i hopen
      have hdata : (h.readData s.state packet).2 ≠ .Error := by
        intro hresult
        rw [hstatus', hresult] at hopen
        exact hopen rfl
      refine ⟨[], rest, hreceiving', hactive', hstorage ▸ hcapacity, ?_, by omega,
        fun _ => ⟨rfl, by omega⟩⟩
      rw [hhanded', hstate']
      exact hleads.trans (leads_of_packet hcase hdata)

theorem framing_readHandler {limit fuel : Nat} (hs : Framing h state stream limit s)
    (hfuel : s.readBuffer.getActiveSize ≤ fuel) :
    Ends (fun fault => fault = .outOfBounds ∧ Overflows h state stream) (s.readHandler h fuel)
      fun s' => Framing h state stream limit s' ∧ s'.unread = none := by
  refine (Ends.whileSome (Framing h state stream limit)
    (fun s => if s.unread = some () then s.readBuffer.getActiveSize else 0) ?_ ?_ fuel s hs ?_)
  · intro s () _ hunread
    rw [if_pos hunread]
    rw [WorldSocket.unread] at hunread
    split at hunread
    · rename_i hreading
      exact hreading.2
    · cases hunread
  · intro s () hs hunread
    refine (framing_round hs hunread).mono ?_
    rintro s' ⟨hs', hless⟩
    refine ⟨hs', ?_⟩
    split
    · rename_i hunread'
      exact hless hunread'
    rw [WorldSocket.unread] at hunread
    split at hunread
    · rename_i hreading
      exact hreading.2
    · cases hunread
  · split
    · exact hfuel
    · exact Nat.zero_le _

/-- Where the socket is in its stream between two reads. -/
def Settled (h : Handlers σ) (state : σ) (stream : List UInt8) (s : WorldSocket σ) : Prop :=
  ∃ limit, Framing h state stream limit s ∧ s.unread = none

theorem settled_receive (chunk : List UInt8) (hs : Settled h state stream s)
    (hfits : s.status ≠ .closed →
      chunk.length ≤ (prepareReadBuffer s.readBuffer).getRemainingSpace) :
    Ends (fun fault => fault = .outOfBounds ∧ Overflows h state (stream ++ chunk))
      (s.receive h chunk) fun s' =>
        Framing h state (stream ++ chunk) (s.readBuffer.getActiveSize + chunk.length) s' ∧
          s'.unread = none := by
  obtain ⟨limit, hs, hunread⟩ := hs
  rw [Framing] at hs
  rw [WorldSocket.receive]
  split at hs
  · rename_i hclosed
    rw [if_pos hclosed]
    refine ⟨?_, hunread⟩
    rw [Framing, if_pos hclosed]
    exact hs.receive chunk
  · rename_i hopen
    rw [if_neg hopen]
    obtain ⟨pending, bytes, hreceiving, hbytes, hcapacity, hleads, -, -⟩ := hs
    obtain ⟨hprepared, hcapacity', -⟩ := active_prepareReadBuffer hbytes hcapacity
    have hfits := hfits hopen
    rw [hprepared.getRemainingSpace] at hfits
    have hroom := hprepared.fits
    obtain ⟨readBuffer, hwrite, hactive, hlength, -⟩ := hprepared.write chunk (by omega)
    rw [hwrite]
    rw [hbytes.getActiveSize, ← List.length_append]
    have hframing : Framing h state (stream ++ chunk) (bytes ++ chunk).length
        { s with readBuffer, status := .reading } := by
      refine ⟨pending, bytes ++ chunk, hreceiving.of_eq rfl rfl rfl, hactive, hlength ▸ hcapacity', ?_,
        le_rfl, nofun⟩
      rw [← List.append_assoc]
      exact hleads.receive chunk
    exact framing_readHandler hframing le_rfl

def receiveAll (h : Handlers σ) (s : WorldSocket σ) (chunks : List (List UInt8)) :
    Except Fault (WorldSocket σ) := chunks.foldlM (WorldSocket.receive h) s

/-- Each chunk is what one read can transfer: some bytes, for which the read buffer has space. -/
def Fits (h : Handlers σ) : WorldSocket σ → List (List UInt8) → Prop
  | _, [] => True
  | s, chunk :: chunks => chunk ≠ [] ∧
    (s.status ≠ .closed → chunk.length ≤ (prepareReadBuffer s.readBuffer).getRemainingSpace) ∧
    ∀ s', s.receive h chunk = .ok s' → Fits h s' chunks

def start (state : σ) : WorldSocket σ := { state }

theorem settled_start : Settled h state [] (start state) := by
  have hread : (start state).readBuffer.Active [] := MessageBuffer.active_ofSize _
  refine ⟨0, ?_, ?_⟩
  · rw [Framing, if_neg nofun]
    refine ⟨[], [], .header (by simp) (MessageBuffer.active_ofSize _) rfl rfl
      (MessageBuffer.active_ofSize _) rfl, hread, ?_, .refl, le_rfl, nofun⟩
    change 2 ≤ (List.replicate 0x1000 (0 : UInt8)).length
    rw [List.length_replicate]
    decide
  · rw [WorldSocket.unread, hread.getActiveSize]
    exact if_neg fun hunread => Nat.lt_irrefl 0 hunread.2

variable {chunks : List (List UInt8)}

theorem settled_receiveAll (hs : Settled h state stream s) (hfits : Fits h s chunks) :
    Ends (fun fault => fault = .outOfBounds ∧ Overflows h state (stream ++ chunks.flatten))
      (receiveAll h s chunks) fun s' => Settled h state (stream ++ chunks.flatten) s' := by
  induction chunks generalizing s stream with
  | nil =>
    rw [List.flatten_nil, List.append_nil]
    exact hs
  | cons chunk chunks ih =>
    obtain ⟨-, hspace, hrest⟩ := hfits
    have hreceive := settled_receive chunk hs hspace
    rw [receiveAll, List.foldlM_cons, List.flatten_cons, ← List.append_assoc]
    cases hresult : s.receive h chunk with
    | error fault =>
      rw [hresult] at hreceive
      obtain ⟨hfault, hoverflows⟩ := hreceive
      refine ⟨hfault, fun more => ?_⟩
      rw [List.append_assoc (stream ++ chunk)]
      exact hoverflows (chunks.flatten ++ more)
    | ok s' =>
      rw [hresult] at hreceive
      exact ih ⟨_, hreceive⟩ (hrest s' hresult)

/-- No fault, and the packets of the stream; behind a packet that waits for a query the rest is
left for after the query. -/
def Framed (h : Handlers σ) (state : σ) (stream : List UInt8)
    (result : Except Fault (WorldSocket σ)) : Prop :=
  ∃ s, result = .ok s ∧
    match s.status with
    | .waitingForQuery => s.handed ++ packetsOf h s.state
        (s.readBuffer.readPointer.take s.readBuffer.getActiveSize) = packetsOf h state stream
    | _ => s.handed = packetsOf h state stream

theorem active_eq_nil (hactive : s.readBuffer.Active bytes) (hstatus : s.status = .reading)
    (hunread : s.unread = none) : bytes = [] := by
  rw [WorldSocket.unread, hactive.getActiveSize] at hunread
  split at hunread
  · cases hunread
  · rename_i hnone
    by_contra hne
    exact hnone ⟨hstatus, List.length_pos_iff.mpr hne⟩

theorem framed_of_sizes (hsizes : ∀ packet ∈ packetsOf h state stream, 4 ≤ packet.size)
    (hflatten : chunks.flatten = stream) (hfits : Fits h (start state) chunks) :
    Framed h state stream (receiveAll h (start state) chunks) := by
  have hrun := settled_receiveAll settled_start hfits
  rw [List.nil_append, hflatten] at hrun
  cases hresult : receiveAll h (start state) chunks with
  | error fault =>
    rw [hresult] at hrun
    obtain ⟨packet, hpacket, hshort⟩ := hrun.2 []
    rw [List.append_nil] at hpacket
    have := hsizes packet hpacket
    omega
  | ok s =>
    rw [hresult] at hrun
    obtain ⟨limit, hframing, hunread⟩ := hrun
    refine ⟨s, rfl, ?_⟩
    rw [Framing] at hframing
    split at hframing
    · rename_i hclosed
      have hpackets := hframing.packets []
      rw [List.append_nil] at hpackets
      rw [hclosed]
      exact hpackets.symm
    · rename_i hopen
      obtain ⟨pending, bytes, hreceiving, hactive, -, hleads, -, hwaits⟩ := hframing
      have hpackets := hleads.packets []
      rw [List.append_nil, List.append_nil] at hpackets
      cases hstatus : s.status with
      | closed => exact absurd hstatus hopen
      | waitingForQuery =>
        obtain ⟨rfl, -⟩ := hwaits hstatus
        rw [hactive.getActiveSize, hactive.bytes]
        exact hpackets.symm
      | reading =>
        obtain rfl : bytes = [] := active_eq_nil hactive hstatus hunread
        rw [List.append_nil] at hpackets
        rcases next_of_round_incomplete (round_receiving hreceiving) with
          hnext | ⟨packet, rest, hnext, hshort⟩
        · rw [packetsOf_incomplete hnext, List.append_nil] at hpackets
          exact hpackets.symm
        have hmem : packet ∈ packetsOf h state stream := by
          rw [hpackets]
          exact List.mem_append_right _ (mem_packetsOf hnext)
        have := hsizes packet hmem
        omega

def Drained (s : WorldSocket σ) : Prop := s.status ≠ .closed → s.readBuffer.Active []

theorem drained_of_framing (hs : Framing h state stream 1 s) (hunread : s.unread = none) :
    Drained s := by
  intro hopen
  rw [Framing, if_neg hopen] at hs
  obtain ⟨pending, bytes, -, hactive, -, -, -, hwaits⟩ := hs
  cases hstatus : s.status with
  | closed => exact absurd hstatus hopen
  | waitingForQuery =>
    obtain ⟨-, hless⟩ := hwaits hstatus
    rwa [List.length_eq_zero_iff.mp (Nat.lt_one_iff.mp hless)] at hactive
  | reading => rwa [active_eq_nil hactive hstatus hunread] at hactive

def singles (stream : List UInt8) : List (List UInt8) := stream.map fun byte => [byte]

theorem flatten_singles (stream : List UInt8) : (singles stream).flatten = stream := by
  induction stream with
  | nil => rfl
  | cons byte stream ih =>
    rw [singles, List.map_cons, List.flatten_cons, ← singles, ih]
    rfl

theorem receive_single (byte : UInt8) (hs : Settled h state stream s) (hdrained : Drained s) :
    (s.status ≠ .closed → [byte].length ≤ (prepareReadBuffer s.readBuffer).getRemainingSpace) ∧
    ∀ s', s.receive h [byte] = .ok s' → Settled h state (stream ++ [byte]) s' ∧ Drained s' := by
  have hspace : s.status ≠ .closed →
      [byte].length ≤ (prepareReadBuffer s.readBuffer).getRemainingSpace := by
    intro hopen
    obtain ⟨limit, hs, -⟩ := hs
    rw [Framing, if_neg hopen] at hs
    obtain ⟨pending, bytes, -, hactive, hcapacity, -⟩ := hs
    exact (active_prepareReadBuffer hactive hcapacity).2.2
  refine ⟨hspace, fun s' hs' => ?_⟩
  have hreceive := settled_receive [byte] hs hspace
  rw [hs'] at hreceive
  refine ⟨⟨_, hreceive⟩, ?_⟩
  by_cases hclosed : s.status = .closed
  · rw [WorldSocket.receive, if_pos hclosed] at hs'
    cases hs'
    exact hdrained
  · obtain ⟨hframing, hunread⟩ := hreceive
    rw [(hdrained hclosed).getActiveSize] at hframing
    exact drained_of_framing hframing hunread

theorem fits_singles (bytes : List UInt8) (hs : Settled h state stream s) (hdrained : Drained s) :
    Fits h s (singles bytes) ∧ ∀ s', receiveAll h s (singles bytes) = .ok s' → Drained s' := by
  induction bytes generalizing s stream with
  | nil =>
    refine ⟨trivial, fun s' hs' => ?_⟩
    cases hs'
    exact hdrained
  | cons byte bytes ih =>
    obtain ⟨hspace, hnext⟩ := receive_single byte hs hdrained
    refine ⟨⟨nofun, hspace, fun s' hs' => ?_⟩, fun s' hs' => ?_⟩
    · obtain ⟨hsettled, hdrained'⟩ := hnext s' hs'
      exact (ih hsettled hdrained').1
    · rw [singles, List.map_cons, receiveAll, List.foldlM_cons] at hs'
      obtain ⟨s₁, hresult, hs'⟩ := exists_of_bind_ok hs'
      obtain ⟨hsettled, hdrained'⟩ := hnext s₁ hresult
      exact (ih hsettled hdrained').2 s' hs'

theorem sizes_of_framed
    (hframed : Framed h state stream (receiveAll h (start state) (singles stream))) :
    ∀ packet ∈ packetsOf h state stream, 4 ≤ packet.size := by
  have hdrained : Drained (start state) := fun _ => MessageBuffer.active_ofSize _
  obtain ⟨hfits, hends⟩ := fits_singles (h := h) stream settled_start hdrained
  have hrun := settled_receiveAll settled_start hfits
  obtain ⟨s, hresult, hframed⟩ := hframed
  rw [hresult, List.nil_append, flatten_singles] at hrun
  obtain ⟨limit, hframing, -⟩ := hrun
  rw [Framing] at hframing
  split at hframing
  · rename_i hclosed
    rw [hclosed] at hframed
    rw [← hframed]
    exact hframing.sizes
  · rename_i hopen
    obtain ⟨pending, bytes, -, -, -, hleads, -⟩ := hframing
    have hhanded : s.handed = packetsOf h state stream := by
      cases hstatus : s.status with
      | closed => exact absurd hstatus hopen
      | reading =>
        rw [hstatus] at hframed
        exact hframed
      | waitingForQuery =>
        rw [hstatus] at hframed
        have hempty := hends s hresult hopen
        have hnothing : packetsOf h s.state [] = [] := packetsOf_incomplete (by
          rw [nextPacket, if_pos (by simp)])
        simp only [hempty.getActiveSize, List.length_nil, List.take_zero, hnothing,
          List.append_nil] at hframed
        exact hframed
    rw [← hhanded]
    exact hleads.sizes

/-- The read handler frames a stream in every way of cutting it into chunks just where no packet of
the stream is shorter than the opcode in the header. -/
theorem frames_stream (h : Handlers σ) (state : σ) (stream : List UInt8) :
    (∀ chunks : List (List UInt8), chunks.flatten = stream → Fits h (start state) chunks →
      Framed h state stream (receiveAll h (start state) chunks)) ↔
    ∀ packet ∈ packetsOf h state stream, 4 ≤ packet.size := by
  constructor
  · intro hframed
    have hdrained : Drained (start state) := fun _ => MessageBuffer.active_ofSize _
    exact sizes_of_framed (hframed (singles stream) (flatten_singles stream)
      (fits_singles _ settled_start hdrained).1)
  · intro hsizes chunks hflatten hfits
    exact framed_of_sizes hsizes hflatten hfits

def plain : Handlers Unit where
  peekDecryptRecv _ opcode := opcode
  canRequestHotfixes _ := true
  readData _ _ := ((), .Ok)

/-- `CMSG_KEEP_ALIVE`, two bytes long, and the first bytes of the size of another packet. -/
def keepAlive : List UInt8 :=
  [2, 0, 0, 0, 0, 0, 0, 0, 0, 0, 0, 0, 0, 0, 0, 0, 0x7f, 0x36] ++ [2, 0]

def AlwaysFramed (h : Handlers σ) (state : σ) : Prop :=
  ∀ stream chunks, chunks.flatten = stream → Fits h (start state) chunks →
    Framed h state stream (receiveAll h (start state) chunks)

theorem not_alwaysFramed : ¬AlwaysFramed plain () := by
  intro h
  have hdrained : Drained (start ()) := fun _ => MessageBuffer.active_ofSize _
  have hframed := h keepAlive (singles keepAlive) (flatten_singles _)
    (fits_singles _ settled_start hdrained).1
  have hnext : nextPacket plain () keepAlive =
      .packet ⟨2, List.replicate 12 0, [0x7f, 0x36]⟩ [2, 0] := by decide
  have hsize := sizes_of_framed hframed _ (mem_packetsOf hnext)
  revert hsize
  decide

end LegionServer.Guarantees.PacketFraming
