/-
TURN over a stream.

STUN messages and ChannelData follow one another on the stream; ChannelData is padded
to a multiple of four, and the padding is not in its length field.  The reader decides
on four or eight bytes what is in front and how long it is.  The packet pool is never
empty here, so ChannelData is never dropped.

* `readAll_eq_parse` — the frames do not depend on how the stream was read;
* `stream_framing` — and frames that were written one after another come out as they are.
-/
import Csqtt.ByteOrder
import Csqtt.PacketBuf
import Csqtt.StreamFraming

open ByteOrder Framing

namespace Csqtt.TurnStream

/-- `MAX_CONTROL_FRAME_BYTES`. -/
def maxControlFrameBytes : ℕ := 4096

/-- `MAX_DATA_FRAME_BYTES`. -/
def maxDataFrameBytes : ℕ := packetCapacity - packetHeadroom

/-- `STREAM_READ_BUFFER_BYTES`. -/
def streamReadBufferBytes : ℕ := maxControlFrameBytes

def magicCookie : Packet := [0x21, 0x12, 0xa4, 0x42]

inductive TurnStreamFrame where
  | control (bytes : Packet)
  | data (packet : PacketBuf)
  deriving DecidableEq

inductive FrameKind where
  | control (frameBytes : ℕ)
  | channelData (frameBytes padding : ℕ)

/-- The bytes that the frame takes off the stream. -/
def FrameKind.consumed : FrameKind → ℕ
  | control frameBytes => frameBytes
  | channelData frameBytes padding => frameBytes + padding

/-- The zeros behind a payload of this length. -/
def alignment (declared : ℕ) : ℕ := (4 - declared % 4) % 4

def frameStart (bytes : Packet) : Except String (Option FrameKind) :=
  match bytes with
  | b₀ :: _ :: b₂ :: b₃ :: rest =>
    let declared := ofBytes [b₂, b₃]
    if b₀ &&& 0xc0 = 0 then
      if declared % 4 ≠ 0 then .error "TURN stream control frame has an unaligned length"
      else if maxControlFrameBytes < 20 + declared then
        .error "TURN stream control frame exceeds the hard limit"
      else if rest.length < 4 then .ok none
      else if rest.take 4 ≠ magicCookie then
        .error "TURN stream control frame has an invalid magic cookie"
      else .ok (some (.control (20 + declared)))
    else if b₀ &&& 0xc0 ≠ 0x40 then
      .error "TURN stream received a frame in the reserved type range"
    else if maxDataFrameBytes < 4 + declared + alignment declared then
      .error "TURN stream ChannelData frame exceeds packet capacity"
    else .ok (some (.channelData (4 + declared) (alignment declared)))
  | _ => .ok none

/-- `copy_channel_data`. -/
def copyChannelData (wire : Packet) : Except String TurnStreamFrame :=
  match PacketBuf.setReadLen wire with
  | none => .error "packet read length exceeds capacity"
  | some packet => .ok (.data packet)

/-- The frame of this kind, and what follows it. -/
def cutFrame (bytes : Packet) : FrameKind → Except String (TurnStreamFrame × Packet)
  | .control frameBytes => .ok (.control (bytes.take frameBytes), bytes.drop frameBytes)
  | .channelData frameBytes padding =>
    (copyChannelData (bytes.take (frameBytes + padding))).map
      fun frame => (frame, bytes.drop (frameBytes + padding))

/-- The frame in front of the buffer and what is left in it; none for `NeedMore`. -/
def decodeFrame (bytes : Packet) : Except String (Option (TurnStreamFrame × Packet)) :=
  match frameStart bytes with
  | .error e => .error e
  | .ok none => .ok none
  | .ok (some kind) =>
    if bytes.length < kind.consumed then .ok none else (cutFrame bytes kind).map some

def hardLimit : String := "TURN stream frame buffer reached its hard limit"

/-- How a call of `read_frame` ends on the reads that are still to come. -/
inductive Read where
  | frame (frame : TurnStreamFrame) (buffer : Packet) (reads : List Packet)
  | failed (error : String)
  /-- All reads are used up, and the call waits for more. -/
  | blocked (buffer : Packet)

/-- `read_frame`, with what the reads of the stream return one after the other. -/
def readFrame : List Packet → Packet → Read
  | [], buffer =>
    match decodeFrame buffer with
    | .error e => .failed e
    | .ok (some (frame, rest)) => .frame frame rest []
    | .ok none => if streamReadBufferBytes ≤ buffer.length then .failed hardLimit else .blocked buffer
  | read :: reads, buffer =>
    match decodeFrame buffer with
    | .error e => .failed e
    | .ok (some (frame, rest)) => .frame frame rest (read :: reads)
    | .ok none =>
      if streamReadBufferBytes ≤ buffer.length then .failed hardLimit
      else if read = [] then .failed "TURN stream closed by remote peer"
      else readFrame reads (buffer ++ read)

/-! ### What is found stays found -/

/-- A kind or an error is decided by the bytes that are there. -/
theorem frameStart_append {bytes : Packet} (more : Packet) (h : frameStart bytes ≠ .ok none) :
    frameStart (bytes ++ more) = frameStart bytes := by
  match bytes with
  | [] | [_] | [_, _] | [_, _, _] => exact absurd rfl h
  | b₀ :: b₁ :: b₂ :: b₃ :: rest =>
    simp only [List.cons_append, frameStart] at h ⊢
    by_cases hcontrol : b₀ &&& 0xc0 = 0
    · simp only [if_pos hcontrol] at h ⊢
      by_cases hshort : rest.length < 4
      · -- the length has already been refused
        rw [if_pos hshort] at h
        split_ifs at h ⊢
        · rfl
        · rfl
        · exact absurd rfl h
        · exact absurd rfl h
        · exact absurd rfl h
      · have hlong : ¬ (rest ++ more).length < 4 := by
          rw [List.length_append]
          omega
        rw [if_neg hshort, if_neg hlong, List.take_append_of_le_length (Nat.not_lt.mp hshort)]
    · simp only [if_neg hcontrol]

/-- Four bytes or eight are enough. -/
theorem frameStart_none {bytes : Packet} (h : frameStart bytes = .ok none) : bytes.length < 8 := by
  match bytes with
  | [] | [_] | [_, _] | [_, _, _] => simp
  | b₀ :: b₁ :: b₂ :: b₃ :: rest =>
    simp only [frameStart] at h
    split_ifs at h with _ _ _ hshort
    · simp only [List.length_cons]
      omega
    · exact nomatch Except.ok.inj h
    · exact nomatch Except.ok.inj h

/-- A frame is at least as long as its header, and at most as long as the buffer. -/
theorem frameStart_some {bytes : Packet} {kind : FrameKind}
    (h : frameStart bytes = .ok (some kind)) :
    4 ≤ kind.consumed ∧ kind.consumed ≤ streamReadBufferBytes := by
  match bytes with
  | [] | [_] | [_, _] | [_, _, _] => exact nomatch h
  | b₀ :: b₁ :: b₂ :: b₃ :: rest =>
    simp only [frameStart] at h
    rw [streamReadBufferBytes]
    split_ifs at h with _ _ hlimit _ _ _ hlimit
    · exact nomatch Except.ok.inj h
    · rw [← Option.some.inj (Except.ok.inj h), FrameKind.consumed]
      omega
    · rw [← Option.some.inj (Except.ok.inj h), FrameKind.consumed]
      rw [maxDataFrameBytes, packetCapacity, packetHeadroom] at hlimit
      rw [maxControlFrameBytes]
      omega

theorem cutFrame_append {bytes : Packet} (more : Packet) {kind : FrameKind}
    (h : kind.consumed ≤ bytes.length) :
    cutFrame (bytes ++ more) kind =
      (cutFrame bytes kind).map fun (frame, rest) => (frame, rest ++ more) := by
  cases kind with
  | control frameBytes =>
    rw [FrameKind.consumed] at h
    rw [cutFrame, List.take_append_of_le_length h, List.drop_append_of_le_length h]
    rfl
  | channelData frameBytes padding =>
    rw [FrameKind.consumed] at h
    rw [cutFrame, cutFrame, List.take_append_of_le_length h, List.drop_append_of_le_length h]
    rcases copyChannelData (bytes.take (frameBytes + padding)) with e | frame
    · rfl
    · rfl

theorem cutFrame_rest {bytes rest : Packet} {kind : FrameKind} {frame : TurnStreamFrame}
    (h : cutFrame bytes kind = .ok (frame, rest)) : rest = bytes.drop kind.consumed := by
  cases kind with
  | control frameBytes => exact (Prod.mk.inj (Except.ok.inj h)).2.symm
  | channelData frameBytes padding =>
    rw [cutFrame] at h
    rcases hcopy : copyChannelData (bytes.take (frameBytes + padding)) with e | copied
    · rw [hcopy] at h
      exact nomatch h
    · rw [hcopy] at h
      exact (Prod.mk.inj (Except.ok.inj h)).2.symm

/-- The kind decides how many bytes are waited for. -/
theorem decodeFrame_cases (bytes : Packet) :
    (∃ e, frameStart bytes = .error e ∧ decodeFrame bytes = .error e) ∨
    (frameStart bytes = .ok none ∧ decodeFrame bytes = .ok none) ∨
    ∃ kind, frameStart bytes = .ok (some kind) ∧
      (bytes.length < kind.consumed ∧ decodeFrame bytes = .ok none ∨
        kind.consumed ≤ bytes.length ∧ decodeFrame bytes = (cutFrame bytes kind).map some) := by
  rw [decodeFrame]
  rcases frameStart bytes with e | _ | kind
  · exact .inl ⟨e, rfl, rfl⟩
  · exact .inr (.inl ⟨rfl, rfl⟩)
  · right
    right
    refine ⟨kind, rfl, ?_⟩
    by_cases hshort : bytes.length < kind.consumed
    · exact .inl ⟨hshort, if_pos hshort⟩
    · exact .inr ⟨Nat.not_lt.mp hshort, if_neg hshort⟩

/-- With the bytes of the frame at hand, more bytes only stay behind it. -/
theorem decodeFrame_append {bytes : Packet} (more : Packet) (h : decodeFrame bytes ≠ .ok none) :
    decodeFrame (bytes ++ more) =
      (decodeFrame bytes).map (Option.map fun (frame, rest) => (frame, rest ++ more)) := by
  rcases decodeFrame_cases bytes with ⟨e, hstart, heq⟩ | ⟨_, heq⟩ | ⟨kind, hstart, ⟨_, heq⟩ |
    ⟨henough, heq⟩⟩
  · have happend := frameStart_append more (by rw [hstart]; exact fun h => nomatch h)
    rw [decodeFrame, happend, hstart, heq]
    rfl
  · exact absurd heq h
  · exact absurd heq h
  · have happend := frameStart_append more (by rw [hstart]; exact fun h => nomatch h)
    have hlong : ¬ (bytes ++ more).length < kind.consumed := by
      rw [List.length_append]
      omega
    rw [decodeFrame, happend, hstart, heq]
    simp only [if_neg hlong]
    rw [cutFrame_append more henough]
    rcases cutFrame bytes kind with e | ⟨frame, rest⟩
    · rfl
    · rfl

/-- A buffer that needs more is below the limit. -/
theorem decodeFrame_none {bytes : Packet} (h : decodeFrame bytes = .ok none) :
    bytes.length < streamReadBufferBytes := by
  rcases decodeFrame_cases bytes with ⟨e, _, heq⟩ | ⟨hstart, _⟩ | ⟨kind, hstart, ⟨hshort, _⟩ |
    ⟨_, heq⟩⟩
  · exact nomatch heq.symm.trans h
  · exact Nat.lt_of_lt_of_le (frameStart_none hstart) (by decide)
  · exact Nat.lt_of_lt_of_le hshort (frameStart_some hstart).2
  · -- what is cut off is a frame or an error
    rcases hcut : cutFrame bytes kind with e | cut
    all_goals
      rw [hcut] at heq
      exact nomatch heq.symm.trans h

theorem decodeFrame_shorter {bytes rest : Packet} {frame : TurnStreamFrame}
    (h : decodeFrame bytes = .ok (some (frame, rest))) : rest.length < bytes.length := by
  rcases decodeFrame_cases bytes with ⟨e, _, heq⟩ | ⟨_, heq⟩ | ⟨kind, hstart, ⟨_, heq⟩ |
    ⟨henough, heq⟩⟩
  · exact nomatch heq.symm.trans h
  · exact nomatch heq.symm.trans h
  · exact nomatch heq.symm.trans h
  · have hpositive := (frameStart_some hstart).1
    rw [heq] at h
    rcases hcut : cutFrame bytes kind with e | ⟨cut, left⟩
    · rw [hcut] at h
      exact nomatch h
    · rw [hcut] at h
      obtain ⟨rfl, rfl⟩ := Prod.mk.inj (Option.some.inj (Except.ok.inj h))
      rw [cutFrame_rest hcut, List.length_drop]
      omega

/-- The decoder of the stream. -/
def decoder : Decoder (BitVec 8) TurnStreamFrame String where
  decode := decodeFrame
  shorter := decodeFrame_shorter
  frame_append more h := by
    rw [decodeFrame_append more (by rw [h]; exact fun h => nomatch h), h]
    rfl
  error_append more h := by
    rw [decodeFrame_append more (by rw [h]; exact fun h => nomatch h), h]
    rfl

/-! ### One call -/

section ReadFrame

variable {reads : List Packet} {buffer : Packet}

theorem readFrame_of_error {e : String} (h : decodeFrame buffer = .error e) :
    readFrame reads buffer = .failed e := by
  cases reads with
  | nil => rw [readFrame, h]
  | cons read reads => rw [readFrame, h]

theorem readFrame_of_some {frame : TurnStreamFrame} {rest : Packet}
    (h : decodeFrame buffer = .ok (some (frame, rest))) :
    readFrame reads buffer = .frame frame rest reads := by
  cases reads with
  | nil => rw [readFrame, h]
  | cons read reads => rw [readFrame, h]

theorem readFrame_nil_of_none (h : decodeFrame buffer = .ok none) :
    readFrame [] buffer = .blocked buffer := by
  rw [readFrame, h]
  exact if_neg (Nat.not_le.mpr (decodeFrame_none h))

/-- The buffer has not reached the limit, so the call goes on to read. -/
theorem readFrame_cons_of_none {read : Packet} (h : decodeFrame buffer = .ok none) :
    readFrame (read :: reads) buffer =
      if read = [] then .failed "TURN stream closed by remote peer"
      else readFrame reads (buffer ++ read) := by
  rw [readFrame, h]
  exact if_neg (Nat.not_le.mpr (decodeFrame_none h))

/-- A call returns the frame in front of what it has been given, and uses up some of the
reads for it. -/
theorem readFrame_frame {reads' : List Packet} {rest : Packet} {frame : TurnStreamFrame}
    (h : readFrame reads buffer = .frame frame rest reads') :
    decodeFrame (buffer ++ reads.flatten) = .ok (some (frame, rest ++ reads'.flatten)) ∧
      reads' <:+ reads := by
  induction reads generalizing buffer with
  | nil =>
    rcases hdecode : decodeFrame buffer with e | _ | ⟨found, left⟩
    · rw [readFrame_of_error hdecode] at h
      exact nomatch h
    · rw [readFrame_nil_of_none hdecode] at h
      exact nomatch h
    · rw [readFrame_of_some hdecode] at h
      obtain ⟨rfl, rfl, rfl⟩ := Read.frame.inj h
      rw [List.flatten_nil, List.append_nil, List.append_nil]
      exact ⟨hdecode, List.suffix_refl _⟩
  | cons read reads ih =>
    rcases hdecode : decodeFrame buffer with e | _ | ⟨found, left⟩
    · rw [readFrame_of_error hdecode] at h
      exact nomatch h
    · rw [readFrame_cons_of_none hdecode] at h
      split_ifs at h
      obtain ⟨hfound, hsuffix⟩ := ih h
      rw [List.append_assoc] at hfound
      exact ⟨hfound, hsuffix.trans (List.suffix_cons read reads)⟩
    · -- the reads that are left are what follows the frame
      rw [readFrame_of_some hdecode] at h
      obtain ⟨rfl, rfl, rfl⟩ := Read.frame.inj h
      exact ⟨decoder.frame_append _ hdecode, List.suffix_refl _⟩

/-- A call that fails on reads that are not empty fails on a frame. -/
theorem readFrame_failed {e : String} (hreads : ∀ read ∈ reads, read ≠ [])
    (h : readFrame reads buffer = .failed e) : decodeFrame (buffer ++ reads.flatten) = .error e := by
  induction reads generalizing buffer with
  | nil =>
    rcases hdecode : decodeFrame buffer with e' | _ | ⟨found, left⟩
    · rw [readFrame_of_error hdecode] at h
      rw [List.flatten_nil, List.append_nil, hdecode, Read.failed.inj h]
    · rw [readFrame_nil_of_none hdecode] at h
      exact nomatch h
    · rw [readFrame_of_some hdecode] at h
      exact nomatch h
  | cons read reads ih =>
    obtain ⟨hread, hreads⟩ := List.forall_mem_cons.mp hreads
    rcases hdecode : decodeFrame buffer with e' | _ | ⟨found, left⟩
    · rw [readFrame_of_error hdecode] at h
      rw [← Read.failed.inj h]
      exact decoder.error_append _ hdecode
    · rw [readFrame_cons_of_none hdecode, if_neg hread] at h
      have hfailed := ih hreads h
      rw [List.append_assoc] at hfailed
      exact hfailed
    · rw [readFrame_of_some hdecode] at h
      exact nomatch h

/-- A call that waits has all the bytes in its buffer, and they are not enough. -/
theorem readFrame_blocked {left : Packet} (h : readFrame reads buffer = .blocked left) :
    left = buffer ++ reads.flatten ∧ decodeFrame left = .ok none := by
  induction reads generalizing buffer with
  | nil =>
    rcases hdecode : decodeFrame buffer with e | _ | ⟨found, rest⟩
    · rw [readFrame_of_error hdecode] at h
      exact nomatch h
    · rw [readFrame_nil_of_none hdecode] at h
      rw [← Read.blocked.inj h, List.flatten_nil, List.append_nil]
      exact ⟨rfl, hdecode⟩
    · rw [readFrame_of_some hdecode] at h
      exact nomatch h
  | cons read reads ih =>
    rcases hdecode : decodeFrame buffer with e | _ | ⟨found, rest⟩
    · rw [readFrame_of_error hdecode] at h
      exact nomatch h
    · rw [readFrame_cons_of_none hdecode] at h
      split_ifs at h
      obtain ⟨hleft, hnone⟩ := ih h
      rw [List.append_assoc] at hleft
      exact ⟨hleft, hnone⟩
    · rw [readFrame_of_some hdecode] at h
      exact nomatch h

end ReadFrame

/-! ### Call after call -/

/-- Call `read_frame` until it fails or waits. -/
def readAll (reads : List Packet) (buffer : Packet) :
    List TurnStreamFrame × Outcome (BitVec 8) String :=
  match _h : readFrame reads buffer with
  | .failed e => ([], .failed e)
  | .blocked buffer => ([], .more buffer)
  | .frame frame rest reads => (frame :: (readAll reads rest).1, (readAll reads rest).2)
termination_by (buffer ++ reads.flatten).length
decreasing_by all_goals exact decodeFrame_shorter (readFrame_frame _h).1

theorem readAll_eq_parse {reads : List Packet} {buffer : Packet}
    (hreads : ∀ read ∈ reads, read ≠ []) :
    readAll reads buffer = parse decoder (buffer ++ reads.flatten) := by
  induction reads, buffer using readAll.induct with
  | case1 reads buffer e h =>
    rw [readAll, h, parse_error (d := decoder) (readFrame_failed hreads h)]
  | case2 reads buffer left h =>
    obtain ⟨hleft, hnone⟩ := readFrame_blocked h
    rw [readAll, h, ← hleft, parse_more (d := decoder) hnone]
  | case3 reads buffer frame rest reads' h ih =>
    obtain ⟨hfound, hsuffix⟩ := readFrame_frame h
    have hreads' : ∀ read ∈ reads', read ≠ [] := fun read hread => hreads read (hsuffix.mem hread)
    rw [parse_frame (d := decoder) hfound, ← ih hreads', readAll, h]

/-! ### Frames one after another -/

/-- A STUN message of at most 4096 bytes; `body` starts with the transaction. -/
def IsControl (bytes : Packet) : Prop :=
  ∃ (b₀ b₁ : BitVec 8) (length : ℕ) (body : Packet), b₀ &&& 0xc0 = 0 ∧ length % 4 = 0 ∧
    body.length = 12 + length ∧ 20 + length ≤ maxControlFrameBytes ∧
    bytes = [b₀, b₁] ++ toBytes 2 length ++ magicCookie ++ body

/-- A ChannelData message that fills at most 2240 bytes with its padding. -/
def IsChannelData (bytes : Packet) : Prop :=
  ∃ (b₀ b₁ : BitVec 8) (payload padding : Packet), b₀ &&& 0xc0 = 0x40 ∧
    padding.length = alignment payload.length ∧ bytes.length ≤ maxDataFrameBytes ∧
    bytes = [b₀, b₁] ++ toBytes 2 payload.length ++ payload ++ padding

namespace TurnStreamFrame

def WellFormed : TurnStreamFrame → Prop
  | control bytes => IsControl bytes
  | data packet => packet.start = packetHeadroom ∧ IsChannelData packet.bytes

/-- The bytes of the frame on the stream. -/
def wire : TurnStreamFrame → Packet
  | control bytes => bytes
  | data packet => packet.bytes

end TurnStreamFrame

theorem ofBytes_two {n : ℕ} (h : n < 2 ^ 16) :
    ofBytes [BitVec.ofNat 8 (n / 256), BitVec.ofNat 8 n] = n := by
  rw [← toBytes_two, ofBytes_toBytes]
  exact Nat.mod_eq_of_lt h

theorem decodeFrame_control {bytes : Packet} (h : IsControl bytes) (rest : Packet) :
    decodeFrame (bytes ++ rest) = .ok (some (.control bytes, rest)) := by
  obtain ⟨b₀, b₁, length, body, hfirst, haligned, hbody, hlimit, rfl⟩ := h
  have hword := ofBytes_two (n := length) (by rw [maxControlFrameBytes] at hlimit; omega)
  have hstart : frameStart ([b₀, b₁] ++ toBytes 2 length ++ magicCookie ++ body ++ rest) =
      .ok (some (.control (20 + length))) := by
    rw [toBytes_two]
    show frameStart (b₀ :: b₁ :: BitVec.ofNat 8 (length / 256) :: BitVec.ofNat 8 length ::
      (magicCookie ++ body ++ rest)) = _
    have hcookie : (magicCookie ++ body ++ rest).take 4 = magicCookie := by
      rw [List.append_assoc]
      exact List.take_left' rfl
    have hlong : ¬ (magicCookie ++ body ++ rest).length < 4 := by
      rw [List.length_append, List.length_append]
      show ¬ 4 + body.length + rest.length < 4
      omega
    simp only [frameStart, hword, if_pos hfirst, hcookie]
    rw [if_neg (not_not.mpr haligned), if_neg (Nat.not_lt.mpr hlimit), if_neg hlong,
      if_neg (not_not.mpr rfl)]
  have hlength : ([b₀, b₁] ++ toBytes 2 length ++ magicCookie ++ body).length = 20 + length := by
    simp only [List.length_append, toBytes_length, hbody]
    show 2 + 2 + 4 + (12 + length) = 20 + length
    omega
  have henough : ¬ ([b₀, b₁] ++ toBytes 2 length ++ magicCookie ++ body ++ rest).length <
      (FrameKind.control (20 + length)).consumed := by
    rw [List.length_append, hlength]
    exact Nat.not_lt.mpr (Nat.le_add_right _ _)
  rw [decodeFrame, hstart]
  simp only [if_neg henough, cutFrame, List.take_left' hlength, List.drop_left' hlength]
  rfl

theorem decodeFrame_data {packet : PacketBuf} (hstart : packet.start = packetHeadroom)
    (h : IsChannelData packet.bytes) (rest : Packet) :
    decodeFrame (packet.bytes ++ rest) = .ok (some (.data packet, rest)) := by
  obtain ⟨b₀, b₁, payload, padding, hfirst, hpadding, hlimit, hbytes⟩ := h
  have hlength : packet.bytes.length = 4 + payload.length + alignment payload.length := by
    rw [hbytes]
    simp only [List.length_append, toBytes_length, hpadding]
    show 2 + 2 + payload.length + alignment payload.length = _
    omega
  have hlimit' := hlimit
  rw [maxDataFrameBytes, packetCapacity, packetHeadroom] at hlimit'
  have hword := ofBytes_two (n := payload.length) (by omega)
  have hcontrol : ¬ b₀ &&& 0xc0 = 0 := by
    rw [hfirst]
    decide
  have hkind : frameStart (packet.bytes ++ rest) =
      .ok (some (.channelData (4 + payload.length) (alignment payload.length))) := by
    rw [hbytes, toBytes_two]
    show frameStart (b₀ :: b₁ :: BitVec.ofNat 8 (payload.length / 256) ::
      BitVec.ofNat 8 payload.length :: (payload ++ padding ++ rest)) = _
    simp only [frameStart, hword, if_neg hcontrol]
    rw [if_neg (not_not.mpr hfirst), if_neg (by omega)]
  have henough : ¬ (packet.bytes ++ rest).length <
      (FrameKind.channelData (4 + payload.length) (alignment payload.length)).consumed := by
    rw [List.length_append, hlength]
    exact Nat.not_lt.mpr (Nat.le_add_right _ _)
  have hcopy : copyChannelData packet.bytes = .ok (.data packet) := by
    have hroom : packet.bytes.length ≤ packetCapacity - packetHeadroom := hlimit
    rw [copyChannelData, PacketBuf.setReadLen, dif_pos hroom]
    simp only [← hstart]
  rw [decodeFrame, hkind]
  simp only [if_neg henough, cutFrame, List.take_left' hlength, List.drop_left' hlength, hcopy]
  rfl

theorem decodeFrame_wellFormed {frame : TurnStreamFrame} (h : frame.WellFormed) (rest : Packet) :
    decodeFrame (frame.wire ++ rest) = .ok (some (frame, rest)) := by
  cases frame with
  | control bytes => exact decodeFrame_control h rest
  | data packet => exact decodeFrame_data h.1 h.2 rest

/-! ### The hard limit -/

theorem copyChannelData_error {wire : Packet} {e : String} (h : copyChannelData wire = .error e) :
    e ≠ hardLimit := by
  rw [copyChannelData] at h
  split at h
  · rw [← Except.error.inj h]
    decide
  · exact nomatch h

theorem frameStart_error {bytes : Packet} {e : String} (h : frameStart bytes = .error e) :
    e ≠ hardLimit := by
  match bytes with
  | [] | [_] | [_, _] | [_, _, _] => exact nomatch h
  | b₀ :: b₁ :: b₂ :: b₃ :: rest =>
    simp only [frameStart] at h
    split_ifs at h
    all_goals
      rw [← Except.error.inj h]
      decide

theorem cutFrame_error {bytes : Packet} {kind : FrameKind} {e : String}
    (h : cutFrame bytes kind = .error e) : e ≠ hardLimit := by
  cases kind with
  | control frameBytes => exact nomatch h
  | channelData frameBytes padding =>
    rw [cutFrame] at h
    rcases hcopy : copyChannelData (bytes.take (frameBytes + padding)) with e' | frame
    · rw [hcopy] at h
      exact Except.error.inj h ▸ copyChannelData_error hcopy
    · rw [hcopy] at h
      exact nomatch h

theorem decodeFrame_error {bytes : Packet} {e : String} (h : decodeFrame bytes = .error e) :
    e ≠ hardLimit := by
  rcases decodeFrame_cases bytes with ⟨e', hstart, heq⟩ | ⟨_, heq⟩ | ⟨kind, _, ⟨_, heq⟩ | ⟨_, heq⟩⟩
  · exact Except.error.inj (heq.symm.trans h) ▸ frameStart_error hstart
  · exact nomatch heq.symm.trans h
  · exact nomatch heq.symm.trans h
  · rw [heq] at h
    rcases hcut : cutFrame bytes kind with e' | cut
    · rw [hcut] at h
      exact Except.error.inj h ▸ cutFrame_error hcut
    · rw [hcut] at h
      exact nomatch h

/-- **Framing does not depend on segmentation.**  However a stream is split into reads, the
calls of `read_frame` end as they do when it comes byte by byte; frames that were written
one after another are read as they are; and the buffer never reaches its limit. -/
theorem stream_framing {reads : List Packet} (hreads : ∀ read ∈ reads, read ≠ []) :
    readAll reads [] = readAll (reads.flatten.map fun byte => [byte]) [] ∧
      (∀ frames : List TurnStreamFrame, (∀ frame ∈ frames, frame.WellFormed) →
        reads.flatten = frames.flatMap TurnStreamFrame.wire →
        readAll reads [] = (frames, .more [])) ∧
      (readAll reads []).2 ≠ .failed hardLimit := by
  have hbytes : ∀ read ∈ reads.flatten.map fun byte => [byte], read ≠ [] := by
    intro read hread
    obtain ⟨byte, _, rfl⟩ := List.mem_map.mp hread
    exact List.cons_ne_nil _ _
  -- both ways of reading are the parse of the same bytes
  rw [readAll_eq_parse hreads, readAll_eq_parse hbytes, List.nil_append]
  refine ⟨?_, ?_, ?_⟩
  · have hflatten : (reads.flatten.map fun byte => [byte]).flatten = reads.flatten := by
      rw [← List.flatMap_def, List.flatMap_singleton']
    rw [hflatten]
    rfl
  · intro frames hframes hwire
    rw [hwire]
    exact parse_frames (d := decoder) rfl fun frame hframe rest =>
      decodeFrame_wellFormed (hframes frame hframe) rest
  · intro hlimit
    obtain ⟨left, hleft⟩ := parse_failed hlimit
    exact decodeFrame_error hleft rfl

/-- Three bytes on channel `0x4000`, with the zero that aligns them. -/
def shortData : Packet := [0x40, 0, 0, 3, 0xa1, 0xb2, 0xc3, 0]

def emptyMessage : Packet := [0x01, 0x01, 0, 0] ++ magicCookie ++ List.replicate 12 0

/-- ChannelData and the message behind it, cut in the padding and in the cookie. -/
theorem split_frames_read :
    readAll [shortData.take 7, [0x00, 0x01, 0x01, 0, 0, 0x21], emptyMessage.drop 5] [] =
      ([.data ⟨64, shortData, by decide⟩, .control emptyMessage], .more []) := by
  refine (stream_framing (by decide)).2.1 _ (fun frame hframe => ?_) (by decide)
  rcases List.mem_cons.mp hframe with rfl | hframe
  · exact ⟨rfl, 0x40, 0, [0xa1, 0xb2, 0xc3], [0], by decide⟩
  · rw [List.mem_singleton.mp hframe]
    exact ⟨0x01, 0x01, 0, List.replicate 12 0, by decide⟩

end Csqtt.TurnStream
