/-
The writing side of TURN over a stream.

`write_control` and `write_data` put frames into two bounded queues; `writer_loop` takes
one frame after another and writes it.  Both senders go away with the last
`TurnStreamWriter`, the one for control frames first.  `is_closed` is true as soon as the
sender is gone, also with frames in the queue, and `recv` gives nothing only when they have
all been taken.

* `stream_whole` — in every run the stream is whole frames in the order of their calls, and
  it decodes to them;
* `drained_kept` — nothing is lost in a run in which the senders go away while the loop will
  still look at the queue that has frames (`Drained`);
* `undrained_lost` — and where they do not, the loop goes on to return without those frames.
-/
import Csqtt.ChannelData
import Csqtt.TransitionRun
import Csqtt.TurnMaintenance
import Csqtt.TurnStream

open ByteOrder Framing Transition

namespace Csqtt.TurnStream

/-- `CONTROL_QUEUE_CAPACITY`. -/
def controlQueueCapacity : ℕ := 16

/-- `DATA_QUEUE_CAPACITY`. -/
def dataQueueCapacity : ℕ := 32

/-- The packet of `queue_keepalive`. -/
def keepaliveWire (channel : BitVec 16) : Packet :=
  Stun.bytes16 channel ++ Stun.bytes16 1 ++ [0xff, 0, 0, 0]

/-- What `build_request` has given. -/
def IsRequest (bytes : Packet) : Prop :=
  ∃ (P : Stun.Primitives) (s : Turn.Inner) (operation : Turn.Operation)
    (transaction : Stun.Octets 12) (authenticated : Bool),
    s.buildRequest P operation transaction authenticated = .ok bytes

/-- What `write_control` is given: `pull_control` hands out 1024 bytes at most. -/
structure ControlFrame where
  bytes : Packet
  made : IsRequest bytes ∨ ∃ channel, ChannelData.ValidChannel channel ∧ bytes = keepaliveWire channel
  short : bytes.length ≤ 1024

/-- What `write_data` is given. -/
structure DataFrame where
  packet : PacketBuf
  made : ∃ payload channel, ChannelData.encodeChannelData payload channel = .ok packet
  short : packet.bytes.length ≤ maxDataFrameBytes

inductive TurnStreamOutbound where
  | control (frame : ControlFrame)
  | data (frame : DataFrame)

namespace TurnStreamOutbound

def wire : TurnStreamOutbound → Packet
  | control frame => frame.bytes
  | data frame => frame.packet.bytes

def control? : TurnStreamOutbound → Option ControlFrame
  | control frame => some frame
  | data _ => none

def data? : TurnStreamOutbound → Option DataFrame
  | control _ => none
  | data frame => some frame

end TurnStreamOutbound

/-- The senders of the last `TurnStreamWriter`. -/
inductive Senders where
  | held
  | controlDropped
  | dropped
  deriving DecidableEq

inductive WriterPc where
  /-- At `control.try_recv()`. -/
  | top
  /-- At the first `control.is_closed()`. -/
  | controlClosed
  /-- At the first `data.is_closed()`. -/
  | dataClosed
  | recvData
  | recvControl
  /-- The two branches of `select!`, in their order. -/
  | selectControl
  | selectData
  /-- There was no frame: the second `control.is_closed()` and `data.is_closed()`. -/
  | bothControl
  | bothData
  | write (next : TurnStreamOutbound)
  | returned
  /-- `write_all` has failed on this frame. -/
  | failed (next : TurnStreamOutbound)

structure WriterLoop where
  control : List ControlFrame := []
  data : List DataFrame := []
  senders : Senders := .held
  pc : WriterPc := .top
  /-- The bytes on the stream. -/
  wire : Packet := []
  /-- The frames that the queues have accepted, and those that were written. -/
  acceptedControl : List ControlFrame := []
  acceptedData : List DataFrame := []
  written : List TurnStreamOutbound := []

inductive WriterLabel where
  | writeControl (frame : ControlFrame)
  | writeData (frame : DataFrame)
  | dropControl
  | dropData
  /-- The next step of the loop. -/
  | advance
  /-- `write_all` fails, with so many bytes of the frame written. -/
  | failWrite (count : ℕ)

namespace WriterLoop

/-- The loop has its receivers. -/
def running (s : WriterLoop) : Bool :=
  match s.pc with
  | .returned | .failed _ => false
  | _ => true

/-- `control.try_recv` or `control.recv`; `closed` and `pending` say where the loop goes when
there is no frame. -/
def takeControl (s : WriterLoop) (closed pending : WriterPc) : WriterLoop :=
  match s.control with
  | frame :: control => { s with control, pc := .write (.control frame) }
  | [] => { s with pc := if s.senders ≠ .held then closed else pending }

def takeData (s : WriterLoop) (closed pending : WriterPc) : WriterLoop :=
  match s.data with
  | frame :: data => { s with data, pc := .write (.data frame) }
  | [] => { s with pc := if s.senders = .dropped then closed else pending }

/-- One step of `writer_loop`; a `recv` that waits stays where it is. -/
def advance (s : WriterLoop) : Option WriterLoop :=
  match s.pc with
  | .top => some (s.takeControl .controlClosed .controlClosed)
  | .controlClosed => some { s with pc := if s.senders ≠ .held then .recvData else .dataClosed }
  | .dataClosed =>
    some { s with pc := if s.senders = .dropped then .recvControl else .selectControl }
  | .recvData => some (s.takeData .bothControl .recvData)
  | .recvControl => some (s.takeControl .bothControl .recvControl)
  | .selectControl => some (s.takeControl .bothControl .selectData)
  | .selectData => some (s.takeData .bothControl .selectControl)
  | .bothControl => some { s with pc := if s.senders ≠ .held then .bothData else .top }
  | .bothData => some { s with pc := if s.senders = .dropped then .returned else .top }
  | .write next =>
    some { s with wire := s.wire ++ next.wire, written := s.written ++ [next], pc := .top }
  | .returned | .failed _ => none

/-- A call of `write_control` or `write_data` waits for room, and holds the writer. -/
def apply (s : WriterLoop) : WriterLabel → Option WriterLoop
  | .writeControl frame =>
    if s.senders = .held ∧ s.running ∧ s.control.length < controlQueueCapacity then
      some { s with
        control := s.control ++ [frame], acceptedControl := s.acceptedControl ++ [frame] }
    else none
  | .writeData frame =>
    if s.senders = .held ∧ s.running ∧ s.data.length < dataQueueCapacity then
      some { s with data := s.data ++ [frame], acceptedData := s.acceptedData ++ [frame] }
    else none
  | .dropControl => if s.senders = .held then some { s with senders := .controlDropped } else none
  | .dropData => if s.senders = .controlDropped then some { s with senders := .dropped } else none
  | .advance => s.advance
  | .failWrite count =>
    match s.pc with
    | .write next => some { s with wire := s.wire ++ next.wire.take count, pc := .failed next }
    | _ => none

end WriterLoop

/-- The frame that the loop has taken and not written. -/
def WriterPc.taken : WriterPc → List TurnStreamOutbound
  | write next => [next]
  | failed next => [next]
  | _ => []

namespace WriterLoop

/-! ### What is written -/

/-- The queues hold what was accepted and not taken, and the stream what was written; a
failing write leaves a part of its frame. -/
structure Whole (s : WriterLoop) : Prop where
  control : (s.written ++ s.pc.taken).filterMap TurnStreamOutbound.control? ++ s.control =
    s.acceptedControl
  data : (s.written ++ s.pc.taken).filterMap TurnStreamOutbound.data? ++ s.data = s.acceptedData
  wire : (∀ next, s.pc ≠ .failed next) → s.wire = s.written.flatMap TurnStreamOutbound.wire
  torn : ∀ next, s.pc = .failed next →
    ∃ count, s.wire = s.written.flatMap TurnStreamOutbound.wire ++ next.wire.take count

variable {s s' : WriterLoop} {pc closed pending : WriterPc}

theorem ne_failed_of_taken (h : pc.taken = []) (next : TurnStreamOutbound) : pc ≠ .failed next := by
  rintro rfl
  cases h

theorem Whole.goto (h : Whole s) (htaken : s.pc.taken = []) (hpc : pc.taken = []) :
    Whole { s with pc } := by
  obtain ⟨control, data, wire, -⟩ := h
  rw [htaken] at control data
  refine ⟨?_, ?_, fun _ => wire (ne_failed_of_taken htaken),
    fun next hnext => absurd hnext (ne_failed_of_taken hpc next)⟩
  · rw [hpc]
    exact control
  · rw [hpc]
    exact data

/-- The frame in front of a queue is taken. -/
theorem Whole.take (h : Whole s) (htaken : s.pc.taken = []) (next : TurnStreamOutbound)
    {control : List ControlFrame} {data : List DataFrame}
    (hcontrol : s.control = next.control?.toList ++ control)
    (hdata : s.data = next.data?.toList ++ data) :
    Whole { s with control, data, pc := .write next } := by
  have hheld := h.control
  have hkept := h.data
  rw [htaken, List.append_nil] at hheld hkept
  refine ⟨?_, ?_, fun _ => h.wire (ne_failed_of_taken htaken), fun _ hnext => by cases hnext⟩
  · rw [← hheld, hcontrol]
    show (s.written ++ [next]).filterMap TurnStreamOutbound.control? ++ control = _
    rw [List.filterMap_append, List.append_assoc]
    cases next <;> rfl
  · rw [← hkept, hdata]
    show (s.written ++ [next]).filterMap TurnStreamOutbound.data? ++ data = _
    rw [List.filterMap_append, List.append_assoc]
    cases next <;> rfl

theorem Whole.takeControl (h : Whole s) (htaken : s.pc.taken = []) (hclosed : closed.taken = [])
    (hpending : pending.taken = []) : Whole (s.takeControl closed pending) := by
  rw [WriterLoop.takeControl]
  split
  · next frame control hcontrol => exact h.take htaken (.control frame) hcontrol rfl
  · split_ifs
    · exact h.goto htaken hclosed
    · exact h.goto htaken hpending

theorem Whole.takeData (h : Whole s) (htaken : s.pc.taken = []) (hclosed : closed.taken = [])
    (hpending : pending.taken = []) : Whole (s.takeData closed pending) := by
  rw [WriterLoop.takeData]
  split
  · next frame data hdata => exact h.take htaken (.data frame) rfl hdata
  · split_ifs
    · exact h.goto htaken hclosed
    · exact h.goto htaken hpending

/-- Between two looks at a queue, the loop only moves. -/
theorem Whole.branch (h : Whole s) (htaken : s.pc.taken = []) {c : Prop} [Decidable c]
    (hclosed : closed.taken = []) (hpending : pending.taken = []) :
    Whole { s with pc := if c then closed else pending } := by
  refine h.goto htaken ?_
  split_ifs
  · exact hclosed
  · exact hpending

theorem Whole.advance (h : Whole s) (hstep : s.advance = some s') : Whole s' := by
  have htaken : ∀ pc : WriterPc, s.pc = pc → pc.taken = [] → s.pc.taken = [] := fun _ hpc hnone =>
    hpc ▸ hnone
  cases hpc : s.pc with
  | write next =>
    simp only [WriterLoop.advance, hpc] at hstep
    obtain rfl := Option.some_inj.mp hstep
    obtain ⟨control, data, wire, -⟩ := h
    rw [hpc] at control data wire
    refine ⟨?_, ?_, fun _ => ?_, fun _ hnext => by cases hnext⟩
    · rw [← control]
      simp [WriterPc.taken]
    · rw [← data]
      simp [WriterPc.taken]
    · rw [wire (by simp), List.flatMap_append]
      simp
  | returned | failed next =>
    simp only [WriterLoop.advance, hpc] at hstep
    cases hstep
  | top | recvControl | selectControl =>
    simp only [WriterLoop.advance, hpc] at hstep
    obtain rfl := Option.some_inj.mp hstep
    exact h.takeControl (htaken _ hpc rfl) rfl rfl
  | recvData | selectData =>
    simp only [WriterLoop.advance, hpc] at hstep
    obtain rfl := Option.some_inj.mp hstep
    exact h.takeData (htaken _ hpc rfl) rfl rfl
  | controlClosed | dataClosed | bothControl | bothData =>
    simp only [WriterLoop.advance, hpc] at hstep
    obtain rfl := Option.some_inj.mp hstep
    exact h.branch (htaken _ hpc rfl) rfl rfl

theorem Whole.apply (h : Whole s) {label : WriterLabel} (hstep : s.apply label = some s') :
    Whole s' := by
  cases label with
  | writeControl frame =>
    rw [WriterLoop.apply] at hstep
    split_ifs at hstep
    obtain rfl := Option.some_inj.mp hstep
    refine ⟨?_, h.data, h.wire, h.torn⟩
    rw [← h.control, List.append_assoc]
  | writeData frame =>
    rw [WriterLoop.apply] at hstep
    split_ifs at hstep
    obtain rfl := Option.some_inj.mp hstep
    refine ⟨h.control, ?_, h.wire, h.torn⟩
    rw [← h.data, List.append_assoc]
  | dropControl =>
    rw [WriterLoop.apply] at hstep
    split_ifs at hstep
    obtain rfl := Option.some_inj.mp hstep
    exact ⟨h.control, h.data, h.wire, h.torn⟩
  | dropData =>
    rw [WriterLoop.apply] at hstep
    split_ifs at hstep
    obtain rfl := Option.some_inj.mp hstep
    exact ⟨h.control, h.data, h.wire, h.torn⟩
  | advance => exact h.advance hstep
  | failWrite count =>
    simp only [WriterLoop.apply] at hstep
    split at hstep
    · next next hpc =>
      obtain rfl := Option.some_inj.mp hstep
      obtain ⟨control, data, wire, -⟩ := h
      rw [hpc] at control data wire
      refine ⟨control, data, fun hne => absurd rfl (hne next), ?_⟩
      rintro _ ⟨⟩
      exact ⟨count, by rw [wire (by simp)]⟩
    · cases hstep

/-! ### When the senders go away -/

/-- The loop will still look at a queue that has frames. -/
def Drained (s : WriterLoop) : Prop :=
  match s.pc with
  | .controlClosed | .recvData | .selectData => s.data = [] → s.control = []
  | .dataClosed | .recvControl | .selectControl => s.control = [] → s.data = []
  | .bothControl | .bothData => s.data = []
  | _ => True

/-- The senders go away when the loop will still look at a queue that has frames. -/
def Paced (s : WriterLoop) (label : WriterLabel) : Prop :=
  match label with
  | .dropData => s.Drained
  | _ => True

/-- Where the loop is on its way to return, the queues are empty. -/
def Settled (s : WriterLoop) : Prop :=
  match s.senders, s.pc with
  | .held, .bothControl | .held, .bothData | .held, .returned => False
  | .controlDropped, .bothControl | .controlDropped, .bothData => s.control = []
  | .controlDropped, .returned => False
  | .dropped, .bothControl | .dropped, .bothData | .dropped, .returned =>
    s.control = [] ∧ s.data = []
  | .dropped, _ => s.Drained
  | _, _ => True

theorem Settled.advance (h : Settled s) (hstep : s.advance = some s') : Settled s' := by
  obtain ⟨control, data, senders, pc, wire, acceptedControl, acceptedData, written⟩ := s
  cases pc with
  | write next =>
    obtain rfl := Option.some_inj.mp hstep
    cases senders <;> trivial
  | returned | failed next => cases hstep
  | top | recvControl | selectControl =>
    obtain rfl := Option.some_inj.mp hstep
    cases control <;> cases senders <;> simp_all [Settled, Drained, takeControl]
  | recvData | selectData =>
    obtain rfl := Option.some_inj.mp hstep
    cases data <;> cases senders <;> simp_all [Settled, Drained, takeData]
  | controlClosed | dataClosed | bothControl | bothData =>
    obtain rfl := Option.some_inj.mp hstep
    cases senders <;> simp_all [Settled, Drained]

theorem Settled.apply (h : Settled s) {label : WriterLabel} (hpaced : s.Paced label)
    (hstep : s.apply label = some s') : Settled s' := by
  obtain ⟨control, data, senders, pc, wire, acceptedControl, acceptedData, written⟩ := s
  cases label with
  | writeControl frame | writeData frame =>
    simp only [WriterLoop.apply] at hstep
    split_ifs at hstep with hroom
    obtain rfl := Option.some_inj.mp hstep
    -- what the queues hold says nothing before the senders begin to go away
    obtain ⟨rfl, -, -⟩ := hroom
    cases pc <;> exact h
  | dropControl =>
    simp only [WriterLoop.apply] at hstep
    split_ifs at hstep with hheld
    obtain rfl := Option.some_inj.mp hstep
    subst hheld
    cases pc <;> first | exact h.elim | trivial
  | dropData =>
    simp only [WriterLoop.apply] at hstep
    split_ifs at hstep with hheld
    obtain rfl := Option.some_inj.mp hstep
    subst hheld
    cases pc with
    | bothControl | bothData => exact ⟨h, hpaced⟩
    | returned => exact h.elim
    | _ => exact hpaced
  | advance => exact h.advance hstep
  | failWrite count =>
    cases pc with
    | write next =>
      obtain rfl := Option.some_inj.mp hstep
      cases senders <;> trivial
    | _ => cases hstep

/-! ### What is read -/

end WriterLoop

theorem bytes16_eq_toBytes (x : BitVec 16) : Stun.bytes16 x = toBytes 2 x.toNat := by
  have hx := x.isLt
  rw [Stun.bytes16, toBytes_two, List.cons_eq_cons, List.cons_eq_cons]
  refine ⟨?_, ?_, rfl⟩
  · apply BitVec.eq_of_toNat_eq
    simp [BitVec.extractLsb'_toNat, Nat.shiftRight_eq_div_pow]
  · apply BitVec.eq_of_toNat_eq
    simp [BitVec.extractLsb'_toNat]

theorem bytes16_ofNat (n : ℕ) : Stun.bytes16 (BitVec.ofNat 16 n) = toBytes 2 n := by
  rw [bytes16_eq_toBytes, BitVec.toNat_ofNat]
  exact toBytes_mod 2 n

/-- Every request is a message. -/
theorem IsRequest.spelled {bytes : Packet} (h : IsRequest bytes) :
    ∃ operation transaction attrs,
      bytes = Stun.spelled (Turn.Operation.method operation) transaction attrs := by
  obtain ⟨P, s, operation, transaction, authenticated, hbuild⟩ := h
  refine ⟨operation, transaction, ?_⟩
  cases authenticated with
  | false =>
    rw [Turn.Inner.buildRequest_plain] at hbuild
    split_ifs at hbuild
    exact ⟨_, (Except.ok.inj hbuild).symm⟩
  | true =>
    cases hkey : s.key with
    | none =>
      rw [Turn.Inner.buildRequest, if_pos rfl] at hbuild
      simp only [hkey] at hbuild
      cases hbuild
    | some key =>
      rw [Turn.Inner.buildRequest_authenticated hkey] at hbuild
      split_ifs at hbuild
      exact ⟨_, (Except.ok.inj hbuild).symm⟩

theorem IsRequest.isControl {bytes : Packet} (h : IsRequest bytes) (hshort : bytes.length ≤ 1024) :
    IsControl bytes := by
  obtain ⟨operation, transaction, attrs, rfl⟩ := h.spelled
  have hlength : 20 + (Stun.fields attrs).length ≤ 1024 := by
    rw [Stun.spelled, List.length_append, Stun.header_length] at hshort
    exact hshort
  refine ⟨operation.method.extractLsb' 8 8, operation.method.extractLsb' 0 8,
    (Stun.fields attrs).length, transaction.val ++ Stun.fields attrs, ?_,
    Stun.fields_length_mod attrs, ?_, ?_, ?_⟩
  · cases operation <;> rfl
  · rw [List.length_append, transaction.property]
  · rw [maxControlFrameBytes]
    omega
  · rw [Stun.spelled, Stun.header, bytes16_ofNat]
    simp only [Stun.bytes16, List.append_assoc]
    rfl

theorem channel_high {channel : BitVec 16} (h : ChannelData.ValidChannel channel) :
    channel.extractLsb' 8 8 &&& 0xc0 = 0x40 := by
  have hbytes := bytes16_eq_toBytes channel
  rw [Stun.bytes16, toBytes_two] at hbytes
  rw [(List.cons.inj hbytes).1]
  exact h.high

theorem keepaliveWire_isChannelData {channel : BitVec 16} (h : ChannelData.ValidChannel channel) :
    IsChannelData (keepaliveWire channel) := by
  refine ⟨channel.extractLsb' 8 8, channel.extractLsb' 0 8, [0xff], [0, 0, 0], channel_high h, rfl,
    ?_, rfl⟩
  show 8 ≤ maxDataFrameBytes
  decide

theorem encoded_bytes {payload packet : PacketBuf} {channel : BitVec 16}
    (h : ChannelData.encodeChannelData payload channel = .ok packet) :
    ChannelData.ValidChannel channel ∧
      packet.bytes = ChannelData.channelHeader channel payload.bytes.length ++
        (payload.bytes ++ List.replicate (alignment payload.bytes.length) 0) := by
  rw [ChannelData.encodeChannelData] at h
  split at h
  · cases h
  · next padding hpadding =>
    rw [ChannelData.channelDataPadding] at hpadding
    simp only at hpadding
    split_ifs at hpadding with hchannel
    obtain rfl := Except.ok.inj hpadding
    split at h
    · cases h
    · next extended hextended =>
      split at h
      · cases h
      · next framed hframed =>
        obtain rfl := Except.ok.inj h
        refine ⟨hchannel, ?_⟩
        rw [PacketBuf.prepend_bytes hframed, (PacketBuf.extendTail_eq_some hextended).2]
        rfl

theorem DataFrame.isChannelData (frame : DataFrame) : IsChannelData frame.packet.bytes := by
  obtain ⟨packet, ⟨payload, channel, hencode⟩, hshort⟩ := frame
  obtain ⟨hchannel, hbytes⟩ := encoded_bytes hencode
  refine ⟨BitVec.ofNat 8 (channel.toNat / 256), BitVec.ofNat 8 channel.toNat, payload.bytes,
    List.replicate (alignment payload.bytes.length) 0, hchannel.high, List.length_replicate, hshort,
    ?_⟩
  rw [hbytes, ChannelData.channelHeader, toBytes_two, List.append_assoc, List.append_assoc,
    List.append_assoc]

/-- What the reader makes of a frame. -/
theorem TurnStreamOutbound.wellFormed (next : TurnStreamOutbound) :
    ∃ frame : TurnStreamFrame, frame.WellFormed ∧ frame.wire = next.wire := by
  cases next with
  | control frame =>
    obtain ⟨bytes, made, hshort⟩ := frame
    rcases made with hrequest | ⟨channel, hchannel, rfl⟩
    · exact ⟨.control bytes, hrequest.isControl hshort, rfl⟩
    · exact ⟨.data ⟨packetHeadroom, keepaliveWire channel, (by decide : 64 + 8 ≤ 2304)⟩,
        ⟨rfl, keepaliveWire_isChannelData hchannel⟩, rfl⟩
  | data frame =>
    refine ⟨.data ⟨packetHeadroom, frame.packet.bytes, ?_⟩, ⟨rfl, frame.isChannelData⟩, rfl⟩
    have hshort := frame.short
    rw [maxDataFrameBytes, packetCapacity, packetHeadroom] at hshort
    rw [packetCapacity, packetHeadroom]
    omega

/-- What is written frame by frame is read frame by frame. -/
theorem parse_written (written : List TurnStreamOutbound) :
    ∃ frames : List TurnStreamFrame,
      frames.map TurnStreamFrame.wire = written.map TurnStreamOutbound.wire ∧
        parse decoder (written.flatMap TurnStreamOutbound.wire) = (frames, .more []) := by
  obtain ⟨frames, hframes, hwire⟩ : ∃ frames : List TurnStreamFrame,
      (∀ frame ∈ frames, frame.WellFormed) ∧
        frames.map TurnStreamFrame.wire = written.map TurnStreamOutbound.wire := by
    induction written with
    | nil => exact ⟨[], by simp, rfl⟩
    | cons next written ih =>
      obtain ⟨frames, hframes, hwire⟩ := ih
      obtain ⟨frame, hframe, hnext⟩ := next.wellFormed
      refine ⟨frame :: frames, List.forall_mem_cons.mpr ⟨hframe, hframes⟩, ?_⟩
      rw [List.map_cons, List.map_cons, hnext, hwire]
  refine ⟨frames, hwire, ?_⟩
  rw [List.flatMap_def, ← hwire, ← List.flatMap_def]
  exact parse_frames (d := decoder) rfl fun frame hframe rest =>
    decodeFrame_wellFormed (hframes frame hframe) rest

namespace WriterLoop

/-! ### Runs -/

/-- The stream is whole frames in the order of their calls, up to a write that fails, and
decodes to them; a loop that returns has written all that was accepted. -/
structure Sound (s : WriterLoop) : Prop where
  whole : (∀ next, s.pc ≠ .failed next) → s.wire = s.written.flatMap TurnStreamOutbound.wire
  torn : ∀ next, s.pc = .failed next →
    ∃ count, s.wire = s.written.flatMap TurnStreamOutbound.wire ++ next.wire.take count
  decoded : ∃ frames : List TurnStreamFrame,
    frames.map TurnStreamFrame.wire = s.written.map TurnStreamOutbound.wire ∧
      parse decoder (s.written.flatMap TurnStreamOutbound.wire) = (frames, .more [])
  control : s.written.filterMap TurnStreamOutbound.control? <+: s.acceptedControl
  data : s.written.filterMap TurnStreamOutbound.data? <+: s.acceptedData
  returned : s.pc = .returned →
    s.written.filterMap TurnStreamOutbound.control? = s.acceptedControl ∧
      s.written.filterMap TurnStreamOutbound.data? = s.acceptedData

theorem Whole.sound (h : Whole s) (hsettled : Settled s) : Sound s := by
  refine ⟨h.wire, h.torn, parse_written s.written, ?_, ?_, fun hreturned => ?_⟩
  · rw [← h.control, List.filterMap_append, List.append_assoc]
    exact List.prefix_append _ _
  · rw [← h.data, List.filterMap_append, List.append_assoc]
    exact List.prefix_append _ _
  · have hempty : s.control = [] ∧ s.data = [] := by
      unfold Settled at hsettled
      rw [hreturned] at hsettled
      cases hsenders : s.senders <;> rw [hsenders] at hsettled
      · exact hsettled.elim
      · exact hsettled.elim
      · exact hsettled
    obtain ⟨control, data, -, -⟩ := h
    rw [hreturned, hempty.1] at control
    rw [hreturned, hempty.2] at data
    simp only [WriterPc.taken, List.append_nil] at control data
    exact ⟨control, data⟩

theorem whole_init : Whole {} := ⟨rfl, rfl, fun _ => rfl, fun _ h => by cases h⟩

/-- In every run the stream is whole frames in the order of their calls, also where frames are
lost. -/
theorem stream_whole (labels : List WriterLabel) :
    Always apply (fun s => ∃ rest, s.wire = s.written.flatMap TurnStreamOutbound.wire ++ rest ∧
      ((∀ next, s.pc ≠ .failed next) → rest = []) ∧
      s.written.filterMap TurnStreamOutbound.control? <+: s.acceptedControl ∧
      s.written.filterMap TurnStreamOutbound.data? <+: s.acceptedData) {} labels := by
  have hstep : ∀ s label s', Whole s → apply s label = some s' → Whole s' :=
    fun _ _ _ hs hs' => hs.apply hs'
  refine (always_of_step hstep whole_init).mono fun s hs => ?_
  have hcontrol : s.written.filterMap TurnStreamOutbound.control? <+: s.acceptedControl := by
    rw [← hs.control, List.filterMap_append, List.append_assoc]
    exact List.prefix_append _ _
  have hdata : s.written.filterMap TurnStreamOutbound.data? <+: s.acceptedData := by
    rw [← hs.data, List.filterMap_append, List.append_assoc]
    exact List.prefix_append _ _
  by_cases hfailed : ∃ next, s.pc = .failed next
  · obtain ⟨next, hnext⟩ := hfailed
    obtain ⟨count, hwire⟩ := hs.torn next hnext
    exact ⟨_, hwire, fun hne => absurd hnext (hne next), hcontrol, hdata⟩
  · have hne := not_exists.mp hfailed
    exact ⟨[], by rw [hs.wire hne, List.append_nil], fun _ => rfl, hcontrol, hdata⟩

/-- **Nothing is lost** in a run in which the senders go away while the loop will still look at
the queue that has frames. -/
theorem drained_kept {labels : List WriterLabel} (h : Admits apply Paced {} labels) :
    Always apply Sound {} labels := by
  have hstep : ∀ s label s', Whole s ∧ Settled s → Paced s label → apply s label = some s' →
      Whole s' ∧ Settled s' := fun _ _ _ hs hpaced hs' =>
    ⟨hs.1.apply hs', hs.2.apply hpaced hs'⟩
  exact (always_of_admits hstep ⟨whole_init, trivial⟩ h).mono fun _ hs => hs.1.sound hs.2

/-- Where the queue that the loop will not look at has frames, it goes on to return without
them. -/
theorem undrained_lost (hsenders : s.senders = .controlDropped) (h : ¬ s.Drained) :
    ∃ count last, run apply s (.dropData :: List.replicate count .advance) = some last ∧
      last.pc = .returned ∧ (last.control ≠ [] ∨ last.data ≠ []) := by
  obtain ⟨control, data, senders, pc, wire, acceptedControl, acceptedData, written⟩ := s
  obtain rfl : senders = .controlDropped := hsenders
  cases pc with
  | controlClosed =>
    obtain ⟨rfl, hcontrol⟩ := Classical.not_imp.mp h
    exact ⟨4, _, rfl, rfl, .inl hcontrol⟩
  | recvData | selectData =>
    obtain ⟨rfl, hcontrol⟩ := Classical.not_imp.mp h
    exact ⟨3, _, rfl, rfl, .inl hcontrol⟩
  | dataClosed =>
    obtain ⟨rfl, hdata⟩ := Classical.not_imp.mp h
    exact ⟨4, _, rfl, rfl, .inr hdata⟩
  | recvControl | selectControl =>
    obtain ⟨rfl, hdata⟩ := Classical.not_imp.mp h
    exact ⟨3, _, rfl, rfl, .inr hdata⟩
  | bothControl => exact ⟨2, _, rfl, rfl, .inr h⟩
  | bothData => exact ⟨1, _, rfl, rfl, .inr h⟩
  | _ => exact absurd trivial h

/-- One byte on channel `0x4000`, with the zeros that align it. -/
def byteFrame : DataFrame where
  packet := ⟨60, [0x40, 0, 0, 1, 7, 0, 0, 0], by decide⟩
  made := ⟨⟨64, [7], by decide⟩, 0x4000, by decide⟩
  short := by decide

/-- The loop waits in `select!` when the frame is accepted and the senders go away. -/
def abandonedRun : List WriterLabel :=
  [.advance, .advance, .advance, .writeData byteFrame, .dropControl, .dropData, .advance, .advance,
    .advance]

/-- The control branch comes first and finds its queue closed, and the frame is never looked
at. -/
theorem abandoned_lost : ¬ Always apply Sound {} abandonedRun := by
  intro h
  obtain ⟨last, hrun, hpc, hwritten, haccepted⟩ : ∃ last, run apply {} abandonedRun = some last ∧
      last.pc = .returned ∧ last.written = [] ∧ last.acceptedData = [byteFrame] :=
    ⟨_, rfl, rfl, rfl, rfl⟩
  have hlast := always_iff_prefixes.mp h abandonedRun List.prefix_rfl last hrun
  have hdata := (hlast.returned hpc).2
  rw [hwritten, haccepted] at hdata
  cases hdata

theorem paced_of_ne {label : WriterLabel} (h : label ≠ .dropData) (s : WriterLoop) :
    s.Paced label := by
  cases label with
  | dropData => exact absurd rfl h
  | _ => trivial

/-- The senders go away while the loop writes, and it drains the queues. -/
def drainedRun : List WriterLabel :=
  [.advance, .advance, .advance, .writeData byteFrame, .writeData byteFrame, .advance, .advance,
    .dropControl] ++ .dropData :: List.replicate 10 .advance

theorem drained_kept_run : Always apply Sound {} drainedRun := by
  refine drained_kept ((admits_append rfl).mpr ⟨admits_of_forall ?_, (admits_cons rfl).mpr
    ⟨?_, admits_of_forall ?_⟩⟩)
  · intro label hlabel
    refine paced_of_ne ?_
    rintro rfl
    simp at hlabel
  · trivial
  · intro label hlabel
    rw [List.eq_of_mem_replicate hlabel]
    exact paced_of_ne WriterLabel.noConfusion

end WriterLoop

end Csqtt.TurnStream
