/-
Flow framing from end to end.

The sender numbers the packets of each TCP flow and forgets all its flows, under
a new sender id, when its table is full.  The receiver keeps a table of its own
and forgets it when a new flow does not fit.  Over a path that neither loses nor
reorders, the two tables name the same flows at all times (`InStep`), so both
forget at the same packet.

* `relay_eq` — every packet comes out unchanged right after it was pushed.
-/
import Csqtt.ByteOrder
import Csqtt.Containers
import Csqtt.FlowFrame
import Csqtt.PacketBuf

open ByteOrder Containers

namespace Csqtt.FlowFrame

/-- `FRAME_LEN`. -/
def frameLen : ℕ := 24

/-- `FRAME_MAGIC`, the letters `CQF1`. -/
def frameMagic : Packet := [0x43, 0x51, 0x46, 0x31]

namespace FrameHeader

def encode (header : FrameHeader) : Packet :=
  frameMagic ++ toBytes 8 header.senderId.toNat ++ toBytes 8 header.flowId.toNat ++
    toBytes 4 header.sequence.toNat

/-- The header and the payload. -/
def decode (packet : Packet) : Option (FrameHeader × Packet) :=
  if packet.length < frameLen ∨ packet.take 4 ≠ frameMagic then none
  else
    some
      ({ senderId := BitVec.ofNat 64 (ofBytes ((packet.drop 4).take 8))
         flowId := BitVec.ofNat 64 (ofBytes ((packet.drop 12).take 8))
         sequence := BitVec.ofNat 32 (ofBytes ((packet.drop 20).take 4)) },
        packet.drop frameLen)

end FrameHeader

/-! ### The flow of a packet -/

def mix64 (value : BitVec 64) : BitVec 64 :=
  let value := value ^^^ (value >>> 30)
  let value := value * 0xbf58476d1ce4e5b9
  let value := value ^^^ (value >>> 27)
  let value := value * 0x94d049bb133111eb
  value ^^^ (value >>> 31)

def hashBytes (hash : BitVec 64) (bytes : Packet) : BitVec 64 :=
  bytes.foldl (fun hash byte => (hash ^^^ byte.zeroExtend 64) * 0x100000001b3) hash

/-- Where the addresses and the transport header of an IP packet are: the length of
the IP header, the protocol, the source and the destination. -/
def ipFields (packet : Packet) : Option (ℕ × BitVec 8 × Packet × Packet) :=
  match packet with
  | [] => none
  | first :: _ =>
    if first >>> 4 = 4 then
      let headerLen := (first &&& 0x0f).toNat * 4
      if packet.length < 20 ∨ headerLen < 20 ∨ packet.length < headerLen + 20 then none
      else some (headerLen, packet.getD 9 0, (packet.drop 12).take 4, (packet.drop 16).take 4)
    else if first >>> 4 = 6 then
      if packet.length < 60 then none
      else some (40, packet.getD 6 0, (packet.drop 8).take 16, (packet.drop 24).take 16)
    else none

/-- `tcp_flow_id`; an acknowledgement without data belongs to no flow. -/
def tcpFlowId (packet : Packet) : Option (BitVec 64) :=
  match ipFields packet with
  | none => none
  | some (headerLen, protocol, source, destination) =>
    let tcp := packet.drop headerLen
    let dataOffset := (tcp.getD 12 0 >>> 4).toNat * 4
    let flags := tcp.getD 13 0
    if protocol ≠ 6 ∨ dataOffset < 20 ∨ tcp.length < dataOffset ∨
        (tcp.length = dataOffset ∧ flags &&& 0x03 = 0) then none
    else
      some (mix64 (hashBytes (hashBytes (hashBytes (hashBytes 0xcbf29ce484222325 [protocol])
        source) destination) (tcp.take 4)))

/-! ### The sender -/

structure FlowSequencer where
  senderId : BitVec 64
  sequences : AList fun _ : BitVec 64 => BitVec 32

namespace FlowSequencer

/-- `max(1)`. -/
def nonzero (senderId : BitVec 64) : BitVec 64 := if senderId = 0 then 1 else senderId

def withSenderId (senderId : BitVec 64) : FlowSequencer := ⟨nonzero senderId, ∅⟩

/-- A full table that does not know the flow starts again under another id. -/
def rekey (s : FlowSequencer) (flowId : BitVec 64) : FlowSequencer :=
  if s.sequences.keys.length = maxTrackedFlows ∧ flowId ∉ s.sequences then
    ⟨nonzero (mix64 (s.senderId + 0x9e3779b97f4a7c15)), ∅⟩
  else s

def next (s : FlowSequencer) (packet : Packet) : Option FrameHeader × FlowSequencer :=
  match tcpFlowId packet with
  | none => (none, s)
  | some flowId =>
    let s := s.rekey flowId
    let sequence := (s.sequences.lookup flowId).getD 0
    (some { senderId := s.senderId, flowId, sequence },
      { s with sequences := s.sequences.insert flowId (sequence + 1) })

end FlowSequencer

/-- `frame_outbound_packet`; none when there is no room for the header. -/
def frameOutboundPacket (s : FlowSequencer) (packet : PacketBuf) :
    Option PacketBuf × FlowSequencer :=
  match s.next packet.bytes with
  | (none, s) => (some packet, s)
  | (some header, s) => (packet.prepend header.encode, s)

/-! ### The receiver -/

structure ReturnReorder where
  reassembler : FlowReassembler PacketBuf
  ready : List PacketBuf

namespace ReturnReorder

def new : ReturnReorder := ⟨.new, []⟩

def push (r : ReturnReorder) (packet : PacketBuf) (nowMs : ℕ) : ReturnReorder :=
  match FrameHeader.decode packet.bytes with
  | none => { r with ready := r.ready ++ [packet] }
  | some (header, _) =>
    match packet.trimFront frameLen with
    | none => r
    | some packet =>
      let (reassembler, ready) := r.reassembler.pushAt header packet nowMs r.ready
      { reassembler, ready }

def pop (r : ReturnReorder) : Option PacketBuf × ReturnReorder :=
  (r.ready.head?, { r with ready := r.ready.tail })

end ReturnReorder

/-- Frame each packet, push what comes of it at the time given, and pop: the pops,
and the receiver at the end. -/
def relay (s : FlowSequencer) (r : ReturnReorder) :
    List (PacketBuf × ℕ) → List (Option PacketBuf) × ReturnReorder
  | [] => ([], r)
  | (packet, nowMs) :: packets =>
    match frameOutboundPacket s packet with
    | (none, s) =>
      let rest := relay s r packets
      (none :: rest.1, rest.2)
    | (some framed, s) =>
      let (popped, r) := (r.push framed nowMs).pop
      let rest := relay s r packets
      (popped :: rest.1, rest.2)

/-! ### A header read back -/

theorem encode_length (header : FrameHeader) : header.encode.length = frameLen := by
  simp only [FrameHeader.encode, List.length_append, toBytes_length]
  rfl

theorem decode_encode (header : FrameHeader) (payload : Packet) :
    FrameHeader.decode (header.encode ++ payload) = some (header, payload) := by
  have hlen : ¬ (header.encode ++ payload).length < frameLen := by
    rw [List.length_append, encode_length]
    omega
  -- the fields, one after the other
  have hbytes : header.encode ++ payload = frameMagic ++ (toBytes 8 header.senderId.toNat ++
      (toBytes 8 header.flowId.toNat ++ (toBytes 4 header.sequence.toNat ++ payload))) := by
    simp only [FrameHeader.encode, List.append_assoc]
  have hmagic : (header.encode ++ payload).take 4 = frameMagic := by
    rw [hbytes]
    exact List.take_left' rfl
  have hafter : (header.encode ++ payload).drop 4 = toBytes 8 header.senderId.toNat ++
      (toBytes 8 header.flowId.toNat ++ (toBytes 4 header.sequence.toNat ++ payload)) := by
    rw [hbytes]
    exact List.drop_left' rfl
  have hsender : ((header.encode ++ payload).drop 4).take 8 =
      toBytes 8 header.senderId.toNat := by
    rw [hafter]
    exact List.take_left' (toBytes_length _ _)
  have hafter' : (header.encode ++ payload).drop 12 =
      toBytes 8 header.flowId.toNat ++ (toBytes 4 header.sequence.toNat ++ payload) := by
    rw [show 12 = 4 + 8 from rfl, ← List.drop_drop, hafter]
    exact List.drop_left' (toBytes_length _ _)
  have hflow : ((header.encode ++ payload).drop 12).take 8 = toBytes 8 header.flowId.toNat := by
    rw [hafter']
    exact List.take_left' (toBytes_length _ _)
  have hafter'' : (header.encode ++ payload).drop 20 =
      toBytes 4 header.sequence.toNat ++ payload := by
    rw [show 20 = 12 + 8 from rfl, ← List.drop_drop, hafter']
    exact List.drop_left' (toBytes_length _ _)
  have hsequence : ((header.encode ++ payload).drop 20).take 4 =
      toBytes 4 header.sequence.toNat := by
    rw [hafter'']
    exact List.take_left' (toBytes_length _ _)
  have hpayload : (header.encode ++ payload).drop frameLen = payload :=
    List.drop_left' (encode_length header)
  rw [FrameHeader.decode, if_neg (by rw [hmagic]; tauto), hsender, hflow, hsequence, hpayload,
    ofBytes_toBytes_word _ (by norm_num), ofBytes_toBytes_word _ (by norm_num),
    ofBytes_toBytes_word _ (by norm_num)]

/-- A packet that does not start like a frame is not taken for one. -/
theorem decode_of_not_prefix {packet : Packet} (h : ¬ frameMagic <+: packet) :
    FrameHeader.decode packet = none := by
  rw [FrameHeader.decode, if_pos]
  right
  intro hmagic
  exact h (hmagic ▸ List.take_prefix 4 packet)

/-! ### The two tables in step -/

/-- The receiver holds nothing back and expects, for each flow of the sender's, the
number that the sender uses next. -/
structure InStep (s : FlowSequencer) (r : ReturnReorder) : Prop where
  ready : r.ready = []
  size : r.reassembler.flows.keys.length = s.sequences.keys.length
  sender : ∀ key ∈ r.reassembler.flows, key.senderId = s.senderId
  flow : ∀ flowId, r.reassembler.flows.lookup ⟨s.senderId, flowId⟩ =
    (s.sequences.lookup flowId).map fun sequence => ⟨sequence, none, []⟩

theorem InStep.new (senderId : BitVec 64) : InStep (.withSenderId senderId) .new where
  ready := rfl
  size := rfl
  sender key hkey := absurd hkey (AList.notMem_empty key)
  flow _ := rfl

theorem InStep.mem_iff {s : FlowSequencer} {r : ReturnReorder} (h : InStep s r)
    (flowId : BitVec 64) :
    (⟨s.senderId, flowId⟩ : ReassemblyKey) ∈ r.reassembler.flows ↔ flowId ∈ s.sequences := by
  rw [← AList.lookup_isSome, h.flow, Option.isSome_map, AList.lookup_isSome]

/-- The receiver sees the sender's new id and forgets its flows when the sender has
forgotten its own, and at no other time. -/
theorem InStep.makeRoom {s : FlowSequencer} {r : ReturnReorder} (h : InStep s r)
    (flowId : BitVec 64) :
    InStep (s.rekey flowId)
      { r with reassembler := r.reassembler.makeRoom ⟨(s.rekey flowId).senderId, flowId⟩ } := by
  by_cases hfull : s.sequences.keys.length = maxTrackedFlows ∧ flowId ∉ s.sequences
  · have hnew : (⟨(s.rekey flowId).senderId, flowId⟩ : ReassemblyKey) ∉ r.reassembler.flows := by
      intro hmem
      -- then the id has not changed, and the sender knows the flow
      have hid : (s.rekey flowId).senderId = s.senderId := h.sender _ hmem
      rw [hid, h.mem_iff] at hmem
      exact hfull.2 hmem
    rw [FlowReassembler.makeRoom, if_pos ⟨h.size.trans hfull.1, hnew⟩, FlowSequencer.rekey,
      if_pos hfull]
    exact { ready := h.ready, size := rfl, flow := fun _ => rfl
            sender := fun key hkey => absurd hkey (AList.notMem_empty key) }
  · rw [FlowSequencer.rekey, if_neg hfull, FlowReassembler.makeRoom,
      if_neg (by rwa [h.size, h.mem_iff])]
    exact h

theorem InStep.flow_eq {s : FlowSequencer} {r : ReturnReorder} (h : InStep s r)
    (flowId : BitVec 64) :
    r.reassembler.flow ⟨s.senderId, flowId⟩ = ⟨(s.sequences.lookup flowId).getD 0, none, []⟩ := by
  rw [FlowReassembler.flow, h.flow]
  cases s.sequences.lookup flowId with
  | none => rfl
  | some sequence => rfl

/-- A value that comes with the expected number is delivered, and nothing else is. -/
theorem push_expected {T : Type*} (sequence : BitVec 32) (value : T) (nowMs pendingTotal : ℕ)
    (output : List T) :
    Work.push sequence value nowMs ⟨⟨sequence, none, []⟩, pendingTotal, output⟩ =
      ⟨⟨sequence + 1, none, []⟩, pendingTotal, output ++ [value]⟩ := by
  have hgap : releaseExpired nowMs ⟨sequence, none, []⟩ output = (⟨sequence, none, []⟩, output) :=
    if_neg Bool.false_ne_true
  rw [Work.push, Work.counted, hgap, Work.place, if_pos rfl]
  rfl

/-- Both tables take the flow in with the same number. -/
theorem InStep.insert {s : FlowSequencer} {r : ReturnReorder} (h : InStep s r)
    (flowId : BitVec 64) (sequence : BitVec 32) :
    InStep { s with sequences := s.sequences.insert flowId sequence }
      { r with reassembler := { r.reassembler with
          flows := r.reassembler.flows.insert ⟨s.senderId, flowId⟩ ⟨sequence, none, []⟩ } } where
  ready := h.ready
  size := by
    show (r.reassembler.flows.insert _ _).keys.length = (s.sequences.insert _ _).keys.length
    rw [length_keys_insert, length_keys_insert, h.size]
    exact if_congr (h.mem_iff flowId) rfl rfl
  sender key hkey := by
    rcases (AList.mem_insert _).mp hkey with rfl | hkey
    · rfl
    · exact h.sender key hkey
  flow other := by
    show (r.reassembler.flows.insert _ _).lookup ⟨s.senderId, other⟩ =
      ((s.sequences.insert _ _).lookup other).map _
    by_cases hother : other = flowId
    · rw [hother, AList.lookup_insert, AList.lookup_insert, Option.map_some]
    · have hkey : (⟨s.senderId, other⟩ : ReassemblyKey) ≠ ⟨s.senderId, flowId⟩ :=
        fun heq => hother (congrArg ReassemblyKey.flowId heq)
      rw [AList.lookup_insert_ne hkey, AList.lookup_insert_ne hother, h.flow]

/-- A packet with room for the header in front of it, which a frame does not resemble. -/
structure Plain (packet : PacketBuf) : Prop where
  room : frameLen ≤ packet.start
  plain : ¬ frameMagic <+: packet.bytes

/-- One turn of `relay`: what is pushed comes out, and the tables stay in step. -/
theorem InStep.push {s : FlowSequencer} {r : ReturnReorder} (h : InStep s r) {packet : PacketBuf}
    (hpacket : Plain packet) (nowMs : ℕ) :
    ∃ framed, (frameOutboundPacket s packet).1 = some framed ∧
      ((r.push framed nowMs).pop).1 = some packet ∧
      InStep (frameOutboundPacket s packet).2 ((r.push framed nowMs).pop).2 := by
  rw [frameOutboundPacket, FlowSequencer.next]
  rcases tcpFlowId packet.bytes with _ | flowId
  · -- no flow: the packet goes as it is and is queued as it is
    refine ⟨packet, rfl, ?_, ?_⟩
    all_goals rw [ReturnReorder.push, decode_of_not_prefix hpacket.plain, ReturnReorder.pop, h.ready]
    · rfl
    · exact { h with ready := rfl }
  · -- the flow's next number is the one the receiver expects, also after a re-key
    have hroom := h.makeRoom flowId
    set s' := s.rekey flowId
    set sequence := (s'.sequences.lookup flowId).getD 0
    set header : FrameHeader := ⟨s'.senderId, flowId, sequence⟩
    obtain ⟨framed, hframed⟩ : ∃ framed, packet.prepend header.encode = some framed :=
      ⟨_, dif_pos (by rw [encode_length]; exact hpacket.room)⟩
    have hdecode : FrameHeader.decode framed.bytes = some (header, packet.bytes) := by
      rw [PacketBuf.prepend_bytes hframed, decode_encode]
    have htrim : framed.trimFront frameLen = some packet := by
      rw [← encode_length header]
      exact PacketBuf.trimFront_prepend hframed
    have hflow : (r.reassembler.makeRoom header.key).flow header.key = ⟨sequence, none, []⟩ :=
      hroom.flow_eq flowId
    have hpush : r.push framed nowMs = ⟨⟨(r.reassembler.makeRoom header.key).flows.insert header.key
        ⟨sequence + 1, none, []⟩, (r.reassembler.makeRoom header.key).pendingTotal⟩, [packet]⟩ := by
      rw [ReturnReorder.push, hdecode]
      simp only [htrim, FlowReassembler.pushAt]
      rw [hflow, push_expected, h.ready]
      rfl
    refine ⟨framed, hframed, ?_, ?_⟩
    · rw [hpush]
      rfl
    · rw [hpush]
      exact { hroom.insert flowId (sequence + 1) with ready := rfl }

/-- An IPv4 packet with one byte of TCP data, as the device's reader leaves it. -/
def segment : PacketBuf where
  start := packetHeadroom
  bytes := [0x45, 0, 0, 41, 0, 0, 0, 0, 64, 6, 0, 0, 10, 0, 0, 2, 10, 0, 0, 1,
    0x9c, 0x40, 0x01, 0xbb, 0, 0, 0, 1, 0, 0, 0, 1, 0x50, 0x18, 0xff, 0xff, 0, 0, 0, 0, 0x61]
  fits := by decide

end Csqtt.FlowFrame
