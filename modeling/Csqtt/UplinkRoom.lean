/-
The room that a packet needs on its way up.

A packet is copied behind the headroom and may fill the rest of its buffer.  The
flow header, the header of the obfuscation and that of ChannelData all fit into the
headroom.  The padding and the tag come behind the payload, where the admission has
left no room for them; the alignment of ChannelData then finds room, since the
headers and the capacity are multiples of four.

* `uplink_sendable_iff` — an admitted packet can be sent exactly when it leaves room
  for the tail of the obfuscation, and a queue is flushed without an error exactly when
  all its packets do.
-/
import Csqtt.ChannelData
import Csqtt.FlowSequence
import Csqtt.Obfs

namespace Csqtt.UplinkRoom

open ChannelData FlowFrame Obfs

/-- `WRITER_BULK_BATCH_LIMIT`. -/
def writerBulkBatchLimit : ℕ := 128

/-- The copy that `inject_packet` makes; none when it answers -3. -/
def injectCopy (data : Packet) : Option PacketBuf :=
  if data = [] ∨ packetCapacity - packetHeadroom < data.length then none
  else PacketBuf.setReadLen data

/-- A queued packet, with what `prepare_packet` draws for it and whether it decides
to send it twice. -/
structure QueuedData where
  packet : PacketBuf
  elapsed : Duration
  draws : Draws
  duplicate : Bool

/-- What a writer works with; the allocation is open and its socket takes everything. -/
structure Writer where
  cipher : ObfsCipher
  config : ObfsConfig
  channel : BitVec 16

namespace Writer

variable (wr : Writer)

/-- `prepare_packet`. -/
def preparePacket (s : ObfsState) (q : QueuedData) : Except String PacketBuf × ObfsState :=
  let (r, s) := wrap wr.cipher wr.config s q.packet q.elapsed q.draws
  (r.map Wrapped.packet, s)

/-- `send_with_duplicate`: what is put on the wire. -/
def sendWithDuplicate (packet : PacketBuf) (duplicate : Bool) : Except String (List PacketBuf) :=
  (encodeChannelData packet wr.channel).map fun packet =>
    if duplicate then [packet, packet] else [packet]

/-- `send_data_batch`: all packets are checked before one is changed. -/
def sendDataBatch (packets : List PacketBuf) : Except String (List PacketBuf) :=
  match packets.mapM (channelDataPadding · wr.channel) with
  | .error e => .error e
  | .ok _ => packets.mapM (encodeChannelData · wr.channel)

/-- `send_packet`. -/
def sendPacket (s : ObfsState) (q : QueuedData) : Except String (List PacketBuf) :=
  match wr.preparePacket s q with
  | (.error e, _) => .error e
  | (.ok packet, _) => wr.sendWithDuplicate packet q.duplicate

/-- The loop of `flush_queued_data`, with the packets of `mmsg_data`. -/
def flushLoop (s : ObfsState) (batch : List PacketBuf) :
    List QueuedData → Except String (List PacketBuf)
  | [] => wr.sendDataBatch batch
  | q :: pending =>
    match wr.preparePacket s q with
    | (.error e, _) => .error e
    | (.ok packet, s) =>
      if q.duplicate then
        match wr.sendDataBatch batch, wr.sendWithDuplicate packet true with
        | .error e, _ => .error e
        | .ok _, .error e => .error e
        | .ok sent, .ok twice => (flushLoop s [] pending).map fun rest => sent ++ twice ++ rest
      else if (batch ++ [packet]).length = writerBulkBatchLimit then
        match wr.sendDataBatch (batch ++ [packet]) with
        | .error e => .error e
        | .ok sent => (flushLoop s [] pending).map fun rest => sent ++ rest
      else flushLoop s (batch ++ [packet]) pending

/-- `flush_queued_data`: an error ends the session; otherwise these datagrams have left. -/
def flushQueuedData (s : ObfsState) (pending : List QueuedData) :
    Except String (List PacketBuf) :=
  match pending with
  | [q] => wr.sendPacket s q
  | pending => wr.flushLoop s [] pending

end Writer

/-! ### What the admission grants -/

/-- The packet is a copy of these bytes that has been through `frame_outbound_packet`. -/
def Framed (data : Packet) (packet : PacketBuf) : Prop :=
  ∃ (seq : FlowSequencer) (copy : PacketBuf), injectCopy data = some copy ∧
    (frameOutboundPacket seq copy).1 = some packet

/-- Every step from the admission to the wire succeeds. -/
def Sendable (wr : Writer) (seq : FlowSequencer) (s : ObfsState) (data : Packet)
    (elapsed : Duration) (draws : Draws) : Prop :=
  ∃ copy framed w out, injectCopy data = some copy ∧
    (frameOutboundPacket seq copy).1 = some framed ∧
    (wrap wr.cipher wr.config s framed elapsed draws).1 = .ok w ∧
    encodeChannelData w.packet wr.channel = .ok out

/-- The length for which `inject_packet` makes a copy. -/
def Injectable (data : Packet) : Prop :=
  data ≠ [] ∧ data.length ≤ packetCapacity - packetHeadroom

/-- The length that leaves room for padding and tag. -/
def Spare (config : ObfsConfig) (draws : Draws) (data : Packet) : Prop :=
  data.length + tail config draws ≤ packetCapacity - packetHeadroom

/-- Where a framed packet lies in its buffer: the flow header may be in front of it. -/
structure Placed (data : Packet) (packet : PacketBuf) : Prop where
  nonempty : packet.bytes ≠ []
  start : packet.start = packetHeadroom ∨ packet.start + frameLen = packetHeadroom
  stop : packet.stop = packetHeadroom + data.length

variable {wr : Writer} {data : Packet} {packet : PacketBuf} {s : ObfsState} {elapsed : Duration}
  {draws : Draws}

theorem injectCopy_isSome (h : Injectable data) :
    ∃ copy, injectCopy data = some copy ∧ copy.start = packetHeadroom ∧ copy.bytes = data := by
  have hadmitted : ¬ (data = [] ∨ packetCapacity - packetHeadroom < data.length) := by
    rintro (hempty | hlong)
    · exact h.1 hempty
    · exact Nat.not_le.mpr hlong h.2
  rw [injectCopy, if_neg hadmitted, PacketBuf.setReadLen, dif_pos h.2]
  exact ⟨_, rfl, rfl, rfl⟩

theorem injectable_of_copy {copy : PacketBuf} (h : injectCopy data = some copy) :
    Injectable data := by
  rw [injectCopy] at h
  split_ifs at h with hrefused
  exact ⟨fun hempty => hrefused (.inl hempty), Nat.not_lt.mp fun hlong => hrefused (.inr hlong)⟩

/-- The headroom is larger than the flow header. -/
theorem framed_placed (seq : FlowSequencer) {copy : PacketBuf} (hstart : copy.start = packetHeadroom)
    (hbytes : copy.bytes = data) (hdata : data ≠ []) :
    ∃ packet, (frameOutboundPacket seq copy).1 = some packet ∧ Placed data packet := by
  have hstop : copy.stop = packetHeadroom + data.length := by
    rw [PacketBuf.stop, hstart, hbytes]
  rw [frameOutboundPacket]
  rcases hnext : seq.next copy.bytes with ⟨_ | header, seq'⟩
  · exact ⟨copy, rfl, hbytes ▸ hdata, .inl hstart, hstop⟩
  · have hroom : (copy.prepend header.encode).isSome := PacketBuf.prepend_isSome.mpr (by
      rw [encode_length, hstart]
      decide)
    obtain ⟨packet, hpacket⟩ := Option.isSome_iff_exists.mp hroom
    refine ⟨packet, hpacket, ?_, .inr ?_, ?_⟩
    · rw [PacketBuf.prepend_bytes hpacket, hbytes]
      exact List.append_ne_nil_of_right_ne_nil _ hdata
    · rw [← encode_length header, PacketBuf.prepend_start hpacket, hstart]
    · rw [PacketBuf.prepend_stop hpacket, hstop]

theorem Framed.placed (h : Framed data packet) : Placed data packet := by
  obtain ⟨seq, copy, hcopy, hframed⟩ := h
  have hinject := injectable_of_copy hcopy
  obtain ⟨copy', hcopy', hstart, hbytes⟩ := injectCopy_isSome hinject
  rw [hcopy] at hcopy'
  rw [← Option.some.inj hcopy'] at hstart hbytes
  obtain ⟨packet', hframed', hplaced⟩ := framed_placed seq hstart hbytes hinject.1
  rw [hframed] at hframed'
  exact Option.some.inj hframed' ▸ hplaced

/-! ### What obfuscation and ChannelData need -/

theorem Placed.admitted_iff {config : ObfsConfig} (h : Placed data packet) :
    Admitted config packet draws ↔ Spare config draws data := by
  have hstart := h.start
  rw [Admitted, Spare, h.stop]
  rw [packetHeadroom, frameLen, packetCapacity] at *
  constructor
  · rintro ⟨_, _, hstop⟩
    omega
  · intro hspare
    exact ⟨h.nonempty, by omega, by omega⟩

theorem Placed.wrap_isOk_iff (h : Placed data packet) (wr : Writer) (s : ObfsState)
    (elapsed : Duration) :
    (∃ w, (wrap wr.cipher wr.config s packet elapsed draws).1 = .ok w) ↔
      Spare wr.config draws data := by
  rw [← h.admitted_iff]
  constructor
  · rintro ⟨w, hw⟩
    exact (wrap_written hw).1
  · intro hadmitted
    obtain ⟨w, hw, _⟩ := wrap_admitted wr.cipher s elapsed hadmitted
    exact ⟨w, hw⟩

/-- What could be wrapped can be framed as ChannelData. -/
theorem Placed.encodes (h : Placed data packet) {w : Wrapped}
    (hw : (wrap wr.cipher wr.config s packet elapsed draws).1 = .ok w)
    (hchannel : ValidChannel wr.channel) :
    ∃ out, encodeChannelData w.packet wr.channel = .ok out := by
  refine (encodeChannelData_isOk_iff hchannel).mpr ?_
  -- the headers have taken 24 or 48 of the 64 bytes in front, and a multiple of four is left
  have hstart := h.start
  have hfits := w.packet.fits
  have hfirst := (wrap_written hw).2.1
  rw [PacketBuf.stop]
  rw [packetHeadroom, frameLen, packetCapacity] at *
  omega

theorem Placed.sends_iff (h : Placed data packet) (hchannel : ValidChannel wr.channel)
    (s : ObfsState) (elapsed : Duration) :
    (∃ w out, (wrap wr.cipher wr.config s packet elapsed draws).1 = .ok w ∧
      encodeChannelData w.packet wr.channel = .ok out) ↔ Spare wr.config draws data := by
  rw [← h.wrap_isOk_iff wr s elapsed]
  constructor
  · rintro ⟨w, _, hw, _⟩
    exact ⟨w, hw⟩
  · rintro ⟨w, hw⟩
    obtain ⟨out, hout⟩ := h.encodes hw hchannel
    exact ⟨w, out, hw, hout⟩

theorem sendable_iff (hdata : Injectable data) (hchannel : ValidChannel wr.channel)
    (seq : FlowSequencer) : Sendable wr seq s data elapsed draws ↔ Spare wr.config draws data := by
  obtain ⟨copy, hcopy, hstart, hbytes⟩ := injectCopy_isSome hdata
  obtain ⟨packet, hpacket, hplaced⟩ := framed_placed seq hstart hbytes hdata.1
  rw [← hplaced.sends_iff hchannel s elapsed]
  constructor
  · -- the copy and the frame are the ones found above
    rintro ⟨copy', framed, w, out, hcopy', hframed, hw, hout⟩
    rw [hcopy] at hcopy'
    rw [← Option.some.inj hcopy', hpacket] at hframed
    rw [← Option.some.inj hframed] at hw
    exact ⟨w, out, hw, hout⟩
  · rintro ⟨w, out, hw, hout⟩
    exact ⟨copy, packet, w, out, hcopy, hpacket, hw, hout⟩

/-! ### A whole queue -/

theorem mapM_isOk_iff {α β : Type} {f : α → Except String β} {xs : List α} :
    (∃ ys, xs.mapM f = .ok ys) ↔ ∀ x ∈ xs, ∃ y, f x = .ok y := by
  induction xs with
  | nil => exact iff_of_true ⟨[], rfl⟩ fun x hx => absurd hx List.not_mem_nil
  | cons x xs ih =>
    rw [List.forall_mem_cons, ← ih, List.mapM_cons]
    rcases hx : f x with e | y
    · exact iff_of_false (fun ⟨_, h⟩ => nomatch h) fun ⟨⟨_, h⟩, _⟩ => nomatch h
    · rcases hxs : xs.mapM f with e | ys
      · exact iff_of_false (fun ⟨_, h⟩ => nomatch h) fun ⟨_, _, h⟩ => nomatch h
      · exact iff_of_true ⟨y :: ys, rfl⟩ ⟨⟨y, rfl⟩, ys, rfl⟩

/-- ChannelData fits around the packet. -/
def Encodable (wr : Writer) (packet : PacketBuf) : Prop :=
  ∃ out, encodeChannelData packet wr.channel = .ok out

theorem Encodable.padding (h : Encodable wr packet) :
    ∃ padding, channelDataPadding packet wr.channel = .ok padding := by
  obtain ⟨out, hout⟩ := h
  rw [encodeChannelData] at hout
  split at hout
  · cases hout
  next padding hpadding => exact ⟨padding, hpadding⟩

theorem sendDataBatch_ok {batch : List PacketBuf} (h : ∀ packet ∈ batch, Encodable wr packet) :
    ∃ sent, wr.sendDataBatch batch = .ok sent := by
  obtain ⟨paddings, hpaddings⟩ := mapM_isOk_iff.mpr fun packet hpacket => (h packet hpacket).padding
  obtain ⟨sent, hsent⟩ := mapM_isOk_iff.mpr h
  exact ⟨sent, by rw [Writer.sendDataBatch, hpaddings]; exact hsent⟩

theorem sendWithDuplicate_ok (h : Encodable wr packet) (duplicate : Bool) :
    ∃ sent, wr.sendWithDuplicate packet duplicate = .ok sent := by
  obtain ⟨out, hout⟩ := h
  exact ⟨_, by rw [Writer.sendWithDuplicate, hout]; rfl⟩

variable {q : QueuedData}

/-- A packet that leaves room is prepared, and then ChannelData fits around it. -/
theorem prepared (h : Placed data q.packet) (hchannel : ValidChannel wr.channel)
    (hspare : Spare wr.config q.draws data) (s : ObfsState) :
    ∃ packet t, wr.preparePacket s q = (.ok packet, t) ∧ Encodable wr packet := by
  obtain ⟨w, hw⟩ := (h.wrap_isOk_iff wr s q.elapsed).mpr hspare
  refine ⟨w.packet, (wrap wr.cipher wr.config s q.packet q.elapsed q.draws).2, ?_,
    h.encodes hw hchannel⟩
  rw [Writer.preparePacket, show wrap wr.cipher wr.config s q.packet q.elapsed q.draws =
    (.ok w, (wrap wr.cipher wr.config s q.packet q.elapsed q.draws).2) from Prod.ext hw rfl]
  rfl

/-- And one that does not is an error. -/
theorem unprepared (h : Placed data q.packet) (hspare : ¬ Spare wr.config q.draws data)
    (s : ObfsState) : ∃ e t, wr.preparePacket s q = (.error e, t) := by
  rcases hw : wrap wr.cipher wr.config s q.packet q.elapsed q.draws with ⟨e | w, t⟩
  · exact ⟨e, t, by rw [Writer.preparePacket, hw]; rfl⟩
  · exact absurd ((h.wrap_isOk_iff wr s q.elapsed).mp ⟨w, congrArg Prod.fst hw⟩) hspare

theorem sendPacket_isOk_iff (h : Placed data q.packet) (hchannel : ValidChannel wr.channel) :
    (∃ sent, wr.sendPacket s q = .ok sent) ↔ Spare wr.config q.draws data := by
  by_cases hspare : Spare wr.config q.draws data
  · obtain ⟨packet, t, hprepared, hencodes⟩ := prepared h hchannel hspare s
    rw [Writer.sendPacket, hprepared]
    exact iff_of_true (sendWithDuplicate_ok hencodes q.duplicate) hspare
  · obtain ⟨e, t, hunprepared⟩ := unprepared h hspare s
    rw [Writer.sendPacket, hunprepared]
    exact iff_of_false (fun ⟨_, h⟩ => nomatch h) hspare

/-- Each packet of the queue is a framed copy of the bytes beside it. -/
def Queued (entries : List (Packet × QueuedData)) : Prop :=
  ∀ e ∈ entries, Framed e.1 e.2.packet

theorem map_isOk_iff {α β : Type} {r : Except String α} {f : α → β} :
    (∃ b, r.map f = .ok b) ↔ ∃ a, r = .ok a := by
  rcases r with e | a
  · exact iff_of_false (fun ⟨_, h⟩ => nomatch h) fun ⟨_, h⟩ => nomatch h
  · exact iff_of_true ⟨f a, rfl⟩ ⟨a, rfl⟩

/-- The loop only ever keeps packets that ChannelData fits around. -/
theorem flushLoop_isOk_iff (hchannel : ValidChannel wr.channel)
    {entries : List (Packet × QueuedData)} (h : Queued entries) {s : ObfsState}
    {batch : List PacketBuf} (hbatch : ∀ packet ∈ batch, Encodable wr packet) :
    (∃ sent, wr.flushLoop s batch (entries.map Prod.snd) = .ok sent) ↔
      ∀ e ∈ entries, Spare wr.config e.2.draws e.1 := by
  induction entries generalizing s batch with
  | nil => exact iff_of_true (sendDataBatch_ok hbatch) fun e he => absurd he List.not_mem_nil
  | cons e entries ih =>
    obtain ⟨hplaced, hrest⟩ := List.forall_mem_cons.mp h
    have hplaced := hplaced.placed
    rw [List.forall_mem_cons, List.map_cons, Writer.flushLoop]
    by_cases hspare : Spare wr.config e.2.draws e.1
    · obtain ⟨packet, t, hprepared, hencodes⟩ := prepared hplaced hchannel hspare s
      have hall : ∀ p ∈ batch ++ [packet], Encodable wr p := by
        intro p hp
        rcases List.mem_append.mp hp with hp | hp
        · exact hbatch p hp
        · exact List.mem_singleton.mp hp ▸ hencodes
      have hnone : ∀ p ∈ [], Encodable wr p := fun p hp => absurd hp List.not_mem_nil
      rw [hprepared, and_iff_right hspare]
      simp only
      split_ifs with hduplicate hfull
      · -- the batch goes out, then the packet twice
        obtain ⟨sent, hsent⟩ := sendDataBatch_ok hbatch
        obtain ⟨twice, htwice⟩ := sendWithDuplicate_ok hencodes true
        rw [hsent, htwice]
        exact map_isOk_iff.trans (ih hrest hnone)
      · -- the batch is full with the packet
        obtain ⟨sent, hsent⟩ := sendDataBatch_ok hall
        rw [hsent]
        exact map_isOk_iff.trans (ih hrest hnone)
      · exact ih hrest hall
    · -- one error ends the loop, whatever the batch holds
      obtain ⟨msg, t, hunprepared⟩ := unprepared hplaced hspare s
      rw [hunprepared]
      exact iff_of_false (fun ⟨_, h⟩ => nomatch h) fun ⟨h, _⟩ => hspare h

theorem flushQueuedData_isOk_iff (hchannel : ValidChannel wr.channel)
    {entries : List (Packet × QueuedData)} (h : Queued entries) (s : ObfsState) :
    (∃ sent, wr.flushQueuedData s (entries.map Prod.snd) = .ok sent) ↔
      ∀ e ∈ entries, Spare wr.config e.2.draws e.1 := by
  have hnone : ∀ p ∈ [], Encodable wr p := fun p hp => absurd hp List.not_mem_nil
  match entries with
  | [] => exact flushLoop_isOk_iff (s := s) hchannel h hnone
  | [e] =>
    rw [List.forall_mem_singleton]
    exact sendPacket_isOk_iff (h e List.mem_cons_self).placed hchannel
  | e₁ :: e₂ :: entries => exact flushLoop_isOk_iff (s := s) hchannel h hnone

/-- **Which admitted packets can be sent.**  For an admitted packet every step up to the
wire succeeds exactly when it leaves room for padding and tag, whatever the flow sequencer
does; and the queue is flushed without an error exactly when that holds of all its packets. -/
theorem uplink_sendable_iff (seq : FlowSequencer) (hdata : Injectable data)
    (hchannel : ValidChannel wr.channel) :
    (Sendable wr seq s data elapsed draws ↔
      data.length + tail wr.config draws ≤ packetCapacity - packetHeadroom) ∧
    ∀ entries, Queued entries →
      ((∃ sent, wr.flushQueuedData s (entries.map Prod.snd) = .ok sent) ↔
        ∀ e ∈ entries,
          e.1.length + tail wr.config e.2.draws ≤ packetCapacity - packetHeadroom) :=
  ⟨sendable_iff hdata hchannel seq, fun _ h => flushQueuedData_isOk_iff hchannel h s⟩

/-! ### Lengths that do for every draw -/

theorem tail_pos (config : ObfsConfig) (draws : Draws) : 11 ≤ tail config draws := by
  rw [tail]
  split_ifs
  · omega
  · omega

theorem tail_le {mode : ObfsMode} {ssrc : BitVec 32}
    (h : draws.padding < (ObfsConfig.new mode ssrc).paddingMax) :
    tail (.new mode ssrc) draws ≤ 70 := by
  cases mode with
  | audio =>
    have hpadding : draws.padding < 24 := h
    show draws.padding + 1 + 16 ≤ 70
    omega
  | video =>
    have hpadding : draws.padding < 60 := h
    show draws.padding + 1 + 10 ≤ 70
    omega

/-- Up to 2170 bytes there is always room. -/
theorem spare_of_short {mode : ObfsMode} {ssrc : BitVec 32}
    (h : draws.padding < (ObfsConfig.new mode ssrc).paddingMax) (hdata : data.length ≤ 2170) :
    Spare (.new mode ssrc) draws data := by
  have htail := tail_le h
  rw [Spare, packetCapacity, packetHeadroom]
  omega

/-- From 2230 bytes on there never is. -/
theorem not_spare_of_long (config : ObfsConfig) (draws : Draws) (hdata : 2230 ≤ data.length) :
    ¬ Spare config draws data := by
  have htail := tail_pos config draws
  rw [Spare, packetCapacity, packetHeadroom]
  omega

/-- A packet of 1300 bytes is sent. -/
theorem tunnel_packet_sendable :
    Sendable ⟨default, .new .video 7, 0x4000⟩ (.withSenderId 1) ⟨0, 0, 0, 0, 0⟩
      (List.replicate 1300 0x45) ⟨0, 0, by decide⟩ ⟨59, 1, fun _ => 0⟩ := by
  have hdata : Injectable (List.replicate 1300 0x45) := by
    refine ⟨List.ne_nil_of_length_pos ?_, ?_⟩
    · rw [List.length_replicate]
      decide
    · rw [List.length_replicate]
      decide
  refine (uplink_sendable_iff _ hdata (by decide)).1.mpr ?_
  rw [List.length_replicate]
  decide

/-- The largest packet that is admitted fits no mode and no draw. -/
theorem largest_packet_refused :
    ¬ ∃ cipher : ObfsCipher, ∀ (config : ObfsConfig) (channel : BitVec 16) (seq : FlowSequencer)
      (s : ObfsState) (data : Packet) (elapsed : Duration) (draws : Draws),
      Injectable data → ValidChannel channel →
      Sendable ⟨cipher, config, channel⟩ seq s data elapsed draws := by
  rintro ⟨cipher, hclaim⟩
  have hlength : (List.replicate 2240 (0x45 : BitVec 8)).length = 2240 := List.length_replicate
  have hdata : Injectable (List.replicate 2240 0x45) := by
    refine ⟨List.ne_nil_of_length_pos ?_, ?_⟩
    · rw [hlength]
      decide
    · rw [hlength]
      decide
  have hsendable := hclaim (.new .audio 7) 0x4000 (.withSenderId 1) ⟨0, 0, 0, 0, 0⟩ _
    ⟨0, 0, by decide⟩ ⟨0, 1, fun _ => 0⟩ hdata (by decide)
  rw [sendable_iff hdata (show ValidChannel 0x4000 by decide)] at hsendable
  exact not_spare_of_long _ _ (by rw [hlength]; decide) hsendable

end Csqtt.UplinkRoom
