/-
The inbound demultiplexer.

What a worker reads is a message of the server's or an IP packet of the tunnel, and the
messages are told by their first bytes.  Some of them start with a letter whose high
nibble is 4, the version of IPv4; for these the header length or the total length of the
packet they would be is impossible (`Foreign`).

* `ip_never_control` — an IP packet is taken for no message, and it comes out of the
  return path as it is.
-/
import Csqtt.Dispatch

namespace Csqtt.Demux

open FlowFrame StripedScheduler Dispatcher ByteOrder

/-! ### The messages -/

/-- `PANEL_RESTART_NOTICE`. -/
def panelRestartNotice : Packet :=
  [0xff, 0x43, 0x53, 0x51, 0x54, 0x54, 0x5f, 0x50, 0x41, 0x4e, 0x45, 0x4c, 0x5f, 0x52, 0x45,
    0x53, 0x54, 0x41, 0x52, 0x54, 0x5f, 0x56, 0x31, 0x00, 0x91, 0x7d, 0x03, 0xa8]

/-- `STREAM_REPAIR_PREFIX`. -/
def streamRepairPrefix : Packet :=
  [0xff, 0x43, 0x53, 0x51, 0x54, 0x54, 0x5f, 0x53, 0x54, 0x52, 0x45, 0x41, 0x4d, 0x5f, 0x52,
    0x45, 0x50, 0x41, 0x49, 0x52, 0x5f, 0x56, 0x31]

/-- `STREAM_ALIVE_PREFIX`. -/
def streamAlivePrefix : Packet :=
  [0xff, 0x43, 0x53, 0x51, 0x54, 0x54, 0x5f, 0x53, 0x54, 0x52, 0x45, 0x41, 0x4d, 0x5f, 0x41,
    0x4c, 0x49, 0x56, 0x45, 0x5f, 0x56, 0x31]

/-- `TUNCONF:`. -/
def tunconf : Packet :=
  [0x54, 0x55, 0x4e, 0x43, 0x4f, 0x4e, 0x46, 0x3a]

/-- `NOCONF`. -/
def noconf : Packet :=
  [0x4e, 0x4f, 0x43, 0x4f, 0x4e, 0x46]

/-- `DENIED:`. -/
def denied : Packet :=
  [0x44, 0x45, 0x4e, 0x49, 0x45, 0x44, 0x3a]

/-- `READY_OK`. -/
def readyOk : Packet :=
  [0x52, 0x45, 0x41, 0x44, 0x59, 0x5f, 0x4f, 0x4b]

/-- `OK:disconnected`. -/
def okDisconnected : Packet :=
  [0x4f, 0x4b, 0x3a, 0x64, 0x69, 0x73, 0x63, 0x6f, 0x6e, 0x6e, 0x65, 0x63, 0x74, 0x65, 0x64]

/-- `GETCONF:`. -/
def getconf : Packet :=
  [0x47, 0x45, 0x54, 0x43, 0x4f, 0x4e, 0x46, 0x3a]

/-- `READY`. -/
def ready : Packet :=
  [0x52, 0x45, 0x41, 0x44, 0x59]

/-- `DISCONNECT:`. -/
def disconnect : Packet :=
  [0x44, 0x49, 0x53, 0x43, 0x4f, 0x4e, 0x4e, 0x45, 0x43, 0x54, 0x3a]

/-- `MAX_STREAM_WORKERS`. -/
def maxStreamWorkers : ℕ := 126

structure StreamRepairCommand where
  sequence : ℕ
  desiredCount : ℕ
  workerIds : List ℕ
  deriving DecidableEq, Repr

def isPanelRestartNotice (response : Packet) : Bool := response = panelRestartNotice

def isControlResponse (response : Packet) : Bool :=
  isPanelRestartNotice response ||
    [tunconf, noconf, denied, readyOk, okDisconnected, streamRepairPrefix, streamAlivePrefix].any
      (·.isPrefixOf response)

/-- The worker ids in pairs of bytes; none when one of them is out of range. -/
def readWorkerIds (desiredCount : ℕ) : Packet → Option (List ℕ)
  | high :: low :: rest =>
    let workerId := ofBytes [high, low]
    if workerId = 0 ∨ desiredCount < workerId then none
    else (readWorkerIds desiredCount rest).map (workerId :: ·)
  | _ => some []

def parseStreamCommand (payload pre : Packet) : Option StreamRepairCommand :=
  if ¬ pre <+: payload then none
  else
    let rest := payload.drop pre.length
    if rest.length < 11 then none
    else
      let sequence := ofBytes (rest.take 8)
      let desiredCount := ofBytes ((rest.drop 8).take 2)
      let ids := rest.drop 11
      if sequence = 0 ∨ desiredCount = 0 ∨ maxStreamWorkers < desiredCount ∨
          ids.length ≠ (rest.getD 10 0).toNat * 2 then none
      else
        match readWorkerIds desiredCount ids with
        | none | some [] => none
        | some workerIds => some { sequence, desiredCount, workerIds }

def parseStreamRepair (payload : Packet) : Option StreamRepairCommand :=
  parseStreamCommand payload streamRepairPrefix

def parseStreamAlive (payload : Packet) : Option StreamRepairCommand :=
  parseStreamCommand payload streamAlivePrefix

/-- `is_control` of the selective FEC. -/
def isControl (packet : Packet) : Bool :=
  getconf.isPrefixOf packet || tunconf.isPrefixOf packet || packet = ready || packet = readyOk ||
    denied.isPrefixOf packet || disconnect.isPrefixOf packet

/-! ### The reader -/

/-- What the coordinator of a shutdown knows of its request. -/
structure ShutdownState where
  active : Bool
  completed : Bool
  deriving DecidableEq

def observeControlResponse (state : ShutdownState) (response : Packet) : Bool × ShutdownState :=
  if response ≠ okDisconnected ∧ ¬ denied.isPrefixOf response then (false, state)
  else if !state.active || state.completed then (false, state)
  else (true, { state with completed := true })

/-- What becomes of a packet that is read. -/
inductive Inbound where
  | panelRestart
  | repair (command : StreamRepairCommand)
  | alive (command : StreamRepairCommand)
  | shutdown
  /-- It goes to `parse_config_response`. -/
  | config (response : Packet)
  | ignored
  | deliver (packet : PacketBuf)
  deriving DecidableEq

/-- One turn of `reader_loop`. -/
def readerTurn (state : ShutdownState) (packet : PacketBuf) : Inbound × ShutdownState :=
  if isPanelRestartNotice packet.bytes then (.panelRestart, state)
  else
    match parseStreamRepair packet.bytes with
    | some command => (.repair command, state)
    | none =>
      match parseStreamAlive packet.bytes with
      | some command => (.alive command, state)
      | none =>
        match observeControlResponse state packet.bytes with
        | (true, state) => (.shutdown, state)
        | (false, state) =>
          if tunconf.isPrefixOf packet.bytes then (.config packet.bytes, state)
          else if isControlResponse packet.bytes then (.ignored, state)
          else (.deliver packet, state)

/-- `return_packet`: the packet goes to the return queue of its class. -/
def returnPacket (queues : PacketClass → Queue PacketBuf) (packet : PacketBuf) :
    PacketClass → Queue PacketBuf :=
  let c := packetClass packet.bytes
  match (queues c).send packet true with
  | some q => Function.update queues c q
  | none => queues

/-! ### IP packets -/

/-- An IPv4 packet with a header length of five words at least and the total length it
has, or an IPv6 packet. -/
def WellFormedIp (packet : Packet) : Prop :=
  packet.length ≤ 2240 ∧
    (packet.getD 0 0 >>> 4 = 4 ∧ 5 ≤ (packet.getD 0 0 &&& 0x0f).toNat ∧
        (u16 (packet.getD 2 0) (packet.getD 3 0)).toNat = packet.length ∨
      packet.getD 0 0 >>> 4 = 6)

/-- No IP packet starts with these bytes. -/
def Foreign (tag : Packet) : Prop :=
  4 ≤ tag.length ∧ tag.getD 0 0 >>> 4 ≠ 6 ∧
    (tag.getD 0 0 >>> 4 ≠ 4 ∨ (tag.getD 0 0 &&& 0x0f).toNat < 5 ∨
      2240 < (u16 (tag.getD 2 0) (tag.getD 3 0)).toNat)

instance (tag : Packet) : Decidable (Foreign tag) := inferInstanceAs (Decidable (_ ∧ _ ∧ _))

variable {packet tag : Packet}

theorem getD_of_starts (h : tag <+: packet) {i : ℕ} (hi : i < tag.length) :
    packet.getD i 0 = tag.getD i 0 := by
  obtain ⟨rest, rfl⟩ := h
  rw [List.getD_eq_getElem?_getD, List.getD_eq_getElem?_getD, List.getElem?_append_left hi]

/-- A prefix that no IP packet has. -/
theorem not_prefix_of_foreign (h : WellFormedIp packet) (htag : Foreign tag) :
    ¬ tag <+: packet := by
  intro hpre
  obtain ⟨hlength, hversion⟩ := h
  obtain ⟨hfour, hnot6, hbad⟩ := htag
  rw [getD_of_starts hpre (show 0 < tag.length by omega),
    getD_of_starts hpre (show 2 < tag.length by omega),
    getD_of_starts hpre (show 3 < tag.length by omega)] at hversion
  rcases hversion with ⟨h4, hheader, htotal⟩ | h6
  · -- the tag names a header that is too short, or more bytes than a packet has
    rcases hbad with hnot4 | hshort | hlong
    · exact hnot4 h4
    · omega
    · omega
  · exact hnot6 h6

theorem isPrefixOf_eq_false (h : WellFormedIp packet) (htag : Foreign tag) :
    tag.isPrefixOf packet = false := by
  rw [Bool.eq_false_iff]
  intro hpre
  exact not_prefix_of_foreign h htag (List.isPrefixOf_iff_prefix.mp hpre)

theorem ne_of_foreign (h : WellFormedIp packet) (htag : Foreign tag) : packet ≠ tag := by
  rintro rfl
  exact not_prefix_of_foreign h htag List.prefix_rfl

/-- Every tag that the demultiplexer looks for is foreign to IP. -/
theorem tags_foreign :
    ∀ tag ∈ [panelRestartNotice, streamRepairPrefix, streamAlivePrefix, tunconf, noconf, denied,
      readyOk, okDisconnected, getconf, ready, disconnect, frameMagic], Foreign tag := by
  decide +kernel

theorem not_isPanelRestartNotice (h : WellFormedIp packet) : isPanelRestartNotice packet = false :=
  decide_eq_false (ne_of_foreign h (tags_foreign _ (by simp)))

theorem parseStreamCommand_of_foreign (h : WellFormedIp packet) (htag : Foreign tag) :
    parseStreamCommand packet tag = none := by
  rw [parseStreamCommand, if_pos (not_prefix_of_foreign h htag)]

theorem observeControlResponse_of_ip (h : WellFormedIp packet) (state : ShutdownState) :
    observeControlResponse state packet = (false, state) := by
  have hok : packet ≠ okDisconnected := ne_of_foreign h (tags_foreign _ (by simp))
  have hdenied := isPrefixOf_eq_false h (tags_foreign denied (by simp))
  rw [observeControlResponse, hdenied, if_pos ⟨hok, Bool.false_ne_true⟩]

theorem not_isControlResponse (h : WellFormedIp packet) : isControlResponse packet = false := by
  rw [isControlResponse, not_isPanelRestartNotice h, Bool.false_or, List.any_eq_false]
  intro tag htag hpre
  have hforeign : Foreign tag := by
    refine tags_foreign tag ?_
    revert htag
    simp only [List.mem_cons, List.not_mem_nil]
    tauto
  rw [isPrefixOf_eq_false h hforeign] at hpre
  exact Bool.false_ne_true hpre

theorem not_isControl (h : WellFormedIp packet) : isControl packet = false := by
  have htag : ∀ tag ∈ [getconf, tunconf, denied, disconnect], tag.isPrefixOf packet = false := by
    intro tag htag
    refine isPrefixOf_eq_false h (tags_foreign tag ?_)
    revert htag
    simp only [List.mem_cons, List.not_mem_nil]
    tauto
  have hready : decide (packet = ready) = false :=
    decide_eq_false (ne_of_foreign h (tags_foreign _ (by simp)))
  have hok : decide (packet = readyOk) = false :=
    decide_eq_false (ne_of_foreign h (tags_foreign _ (by simp)))
  rw [isControl, htag _ (by simp), htag _ (by simp), htag _ (by simp), htag _ (by simp), hready, hok]
  rfl

theorem decode_of_ip (h : WellFormedIp packet) : FrameHeader.decode packet = none :=
  decode_of_not_prefix (not_prefix_of_foreign h (tags_foreign _ (by simp)))

/-- The reader hands an IP packet on. -/
theorem readerTurn_of_ip {packet : PacketBuf} (h : WellFormedIp packet.bytes)
    (state : ShutdownState) : readerTurn state packet = (.deliver packet, state) := by
  have hrepair : parseStreamRepair packet.bytes = none :=
    parseStreamCommand_of_foreign h (tags_foreign _ (by simp))
  have halive : parseStreamAlive packet.bytes = none :=
    parseStreamCommand_of_foreign h (tags_foreign _ (by simp))
  have htunconf := isPrefixOf_eq_false h (tags_foreign tunconf (by simp))
  simp only [readerTurn, not_isPanelRestartNotice h, hrepair, halive,
    observeControlResponse_of_ip h, htunconf, not_isControlResponse h, Bool.false_eq_true, if_false]

/-- **Control messages and IP packets never collide.**  None of the tests fires on a well
formed IP packet; it is delivered, and it comes out of the return path untrimmed. -/
theorem ip_never_control (packet : PacketBuf) (h : WellFormedIp packet.bytes) :
    (isPanelRestartNotice packet.bytes = false ∧ parseStreamRepair packet.bytes = none ∧
      parseStreamAlive packet.bytes = none ∧
      (∀ state, observeControlResponse state packet.bytes = (false, state)) ∧
      tunconf.isPrefixOf packet.bytes = false ∧ isControlResponse packet.bytes = false ∧
      FrameHeader.decode packet.bytes = none ∧ isControl packet.bytes = false) ∧
    (∀ state, readerTurn state packet = (.deliver packet, state)) ∧
    (∀ queues : PacketClass → Queue PacketBuf, (queues (packetClass packet.bytes)).accepts →
      returnPacket queues packet =
        Function.update queues (packetClass packet.bytes)
          ((queues (packetClass packet.bytes)).forcePush packet)) ∧
    ∀ (reorder : ReturnReorder) (nowMs : ℕ),
      reorder.push packet nowMs = { reorder with ready := reorder.ready ++ [packet] } ∧
        (reorder.ready = [] → (reorder.push packet nowMs).pop = (some packet, reorder)) := by
  refine ⟨⟨not_isPanelRestartNotice h, parseStreamCommand_of_foreign h (tags_foreign _ (by simp)),
    parseStreamCommand_of_foreign h (tags_foreign _ (by simp)), observeControlResponse_of_ip h,
    isPrefixOf_eq_false h (tags_foreign _ (by simp)), not_isControlResponse h, decode_of_ip h,
    not_isControl h⟩, readerTurn_of_ip h, ?_, ?_⟩
  · intro queues haccepts
    simp only [returnPacket, Queue.forceSend_eq, haccepts, if_true]
  · intro reorder nowMs
    -- without a flow header it is ready at once
    have hpush : reorder.push packet nowMs = { reorder with ready := reorder.ready ++ [packet] } := by
      simp only [ReturnReorder.push, decode_of_ip h]
    refine ⟨hpush, ?_⟩
    intro hempty
    obtain ⟨reassembler, waiting⟩ := reorder
    obtain rfl : waiting = [] := hempty
    rw [hpush]
    rfl

/-- An IPv4 packet with options that starts with the letters `NO`. -/
def optionsPacket : PacketBuf where
  start := 64
  bytes := [0x4e, 0x4f, 0, 56] ++ List.replicate 52 0
  fits := by decide

theorem options_never_control :
    isControlResponse optionsPacket.bytes = false ∧
      readerTurn ⟨true, false⟩ optionsPacket = (.deliver optionsPacket, ⟨true, false⟩) := by
  have hwf : WellFormedIp optionsPacket.bytes := by
    refine ⟨by decide, .inl ⟨by decide, by decide, by decide⟩⟩
  obtain ⟨⟨_, _, _, _, _, hcontrol, _⟩, hreader, _⟩ := ip_never_control optionsPacket hwf
  exact ⟨hcontrol, hreader ⟨true, false⟩⟩

end Csqtt.Demux
