/-
The two ways to take datagrams from the socket of an allocation.

`try_recv_mmsg` takes a batch with one system call, `portable::try_recv_connected` with one
call a slot.  The kernel's queue holds datagrams and pending errors of the socket:
`recvmmsg` stops at an error behind a datagram and keeps it for the next call, and `recv`
cuts a datagram that its buffer cannot hold.  The driver hands over what a call returns and
ends the allocation at every error but `WouldBlock`.

* `batched_unavailable` — without the system call the first is the second;
* `agree_iff` — both hand over all that is due (`due`), which is the same for both, exactly
  when no datagram that is taken is too long and no error stands behind a datagram of the
  same batch (`Harmless`).
-/
import Csqtt.PacketBuf
import Csqtt.TurnLoop

namespace Csqtt.UdpBatch

inductive SocketError
  /-- `EINTR`. -/
  | interrupted
  | other (code : ℕ)
  deriving DecidableEq

/-- What is next in the kernel's queue. -/
inductive Entry
  | datagram (bytes : Packet)
  | error (error : SocketError)
  deriving DecidableEq

inductive RecvError
  | wouldBlock
  /-- `mmsg_unavailable`: `ENOSYS`, `EPERM` or `EOPNOTSUPP`. -/
  | unavailable
  | socket (error : SocketError)
  | invalidInput (text : String)
  | invalidData (text : String)
  deriving DecidableEq

/-- The length of `read_area`. -/
def readArea : ℕ := packetCapacity - packetHeadroom

/-- The datagram is no longer than `read_area`. -/
abbrev Fits (bytes : Packet) : Prop := bytes.length ≤ readArea

/-- The socket: the kernel's queue, whether it has the system call, and `RECV_MMSG_ENABLED`. -/
structure Socket where
  queue : List Entry
  available : Bool := true
  enabled : Bool := true

abbrev Received := Except RecvError (List PacketBuf) × Socket

/-- `recv` into a slot. -/
def recv (socket : Socket) : Except RecvError Packet × Socket :=
  match socket.queue with
  | [] => (.error .wouldBlock, socket)
  | .error e :: queue => (.error (.socket e), { socket with queue })
  | .datagram bytes :: queue => (.ok (bytes.take readArea), { socket with queue })

/-- The datagrams in front of the first error, `count` at most. -/
def window : ℕ → List Entry → List Packet
  | count + 1, .datagram bytes :: queue => bytes :: window count queue
  | _, _ => []

/-- A slot of `recvmmsg`. -/
structure Message where
  bytes : Packet
  /-- `MSG_TRUNC`. -/
  truncated : Bool

def Message.of (bytes : Packet) : Message :=
  ⟨bytes.take readArea, readArea < bytes.length⟩

def recvmmsg (count : ℕ) (socket : Socket) : Except RecvError (List Message) × Socket :=
  if socket.available then
    match socket.queue with
    | [] => (.error .wouldBlock, socket)
    | .error e :: queue => (.error (.socket e), { socket with queue })
    | queue =>
      let taken := window count queue
      (.ok (taken.map Message.of), { socket with queue := queue.drop taken.length })
  else (.error .unavailable, socket)

/-- The loop around `recvmmsg`: an interrupted call is made again. -/
def recvUninterrupted (count : ℕ) (socket : Socket) : List Entry →
    Except RecvError (List Message) × Socket
  | [] => recvmmsg count { socket with queue := [] }
  | entry :: queue =>
    match recvmmsg count { socket with queue := entry :: queue } with
    | (.error (.socket .interrupted), _) => recvUninterrupted count socket queue
    | (.ok [], socket) => (.error .wouldBlock, socket)
    | result => result

/-- What `try_recv_mmsg` has against a message. -/
def Message.fault (m : Message) : Option String :=
  if m.truncated then some "received UDP datagram exceeds PacketBuf capacity"
  else if packetCapacity - packetHeadroom < m.bytes.length then
    some "recvmmsg reported an invalid UDP datagram length"
  else none

def tooLong : String := "packet read length exceeds capacity"

/-- `try_recv_mmsg`. -/
def tryRecvMmsg (slots : ℕ) (socket : Socket) : Received :=
  if slots = 0 then (.ok [], socket)
  else
    match recvUninterrupted slots socket socket.queue with
    | (.error e, socket) => (.error e, socket)
    | (.ok messages, socket) =>
      if slots < messages.length then
        (.error (.invalidData "recvmmsg returned more datagrams than requested"), socket)
      else
        match messages.findSome? Message.fault with
        | some text => (.error (.invalidData text), socket)
        | none =>
          match messages.mapM fun m => PacketBuf.setReadLen m.bytes with
          | some packets => (.ok packets, socket)
          | none => (.error (.invalidData tooLong), socket)

/-- `portable::try_recv_connected`, behind the slots that are filled. -/
def recvEach (received : List PacketBuf) : ℕ → Socket → Received
  | 0, socket => (.ok received, socket)
  | slots + 1, socket =>
    match recv socket with
    | (.ok bytes, socket) =>
      match PacketBuf.setReadLen bytes with
      | some packet => recvEach (received ++ [packet]) slots socket
      | none => (.error (.invalidData tooLong), socket)
    | (.error e, socket) =>
      if e = .wouldBlock ∧ 0 < received.length then (.ok received, socket)
      else (.error e, socket)

def portable (slots : ℕ) (socket : Socket) : Received := recvEach [] slots socket

/-- `platform::try_recv_connected`. -/
def batched (slots : ℕ) (socket : Socket) : Received :=
  if socket.enabled then
    match tryRecvMmsg slots socket with
    | (.error .unavailable, socket) => portable slots { socket with enabled := false }
    | result => result
  else portable slots socket

/-- `try_recv_connected` over either. -/
def tryRecvConnected (platform : ℕ → Socket → Received) (slots : ℕ) (socket : Socket) :
    Received :=
  if slots ≤ Turn.maxDatagrams then platform slots socket
  else (.error (.invalidInput s!"UDP batch contains {slots} datagrams; limit is {Turn.maxDatagrams}"),
    socket)

/-- A call of the driver: what has arrived since the last one, and its number of slots. -/
structure Round where
  arrived : List Entry
  slots : ℕ
  slots_pos : 0 < slots
  slots_le : slots ≤ Turn.maxDatagrams

/-- What the driver is handed, and the error that ends the allocation. -/
def run (platform : ℕ → Socket → Received) : Socket → List Round →
    List PacketBuf × Option RecvError
  | _, [] => ([], none)
  | socket, x :: rounds =>
    match tryRecvConnected platform x.slots
        { socket with queue := socket.queue ++ x.arrived } with
    | (.ok packets, socket) =>
      let (handed, ended) := run platform socket rounds
      (packets ++ handed, ended)
    | (.error .wouldBlock, socket) => run platform socket rounds
    | (.error e, _) => ([], some e)

/-! ### What is due -/

/-- What is to be handed over: the datagrams that the calls reach, up to an error. -/
def due : List Entry → List Round → List Packet
  | _, [] => []
  | queue, x :: rounds =>
    match queue ++ x.arrived with
    | .error _ :: _ => []
    | queue =>
      let batch := window x.slots queue
      batch ++ due (queue.drop batch.length) rounds

/-- Every datagram that fits is handed over once and in order; one that is too long is
dropped or cut. -/
inductive HandsOver : List Packet → List Packet → Prop
  | nil : HandsOver [] []
  | fits {bytes : Packet} {rest handed : List Packet} :
      Fits bytes → HandsOver rest handed → HandsOver (bytes :: rest) (bytes :: handed)
  | dropped {bytes : Packet} {rest handed : List Packet} :
      ¬ Fits bytes → HandsOver rest handed → HandsOver (bytes :: rest) handed
  | cut {bytes : Packet} {rest handed : List Packet} :
      ¬ Fits bytes → HandsOver rest handed →
      HandsOver (bytes :: rest) (bytes.take readArea :: handed)

/-- What is due is handed over, and only an error of the socket ends the allocation. -/
structure Delivers (platform : ℕ → Socket → Received) (queue : List Entry)
    (rounds : List Round) : Prop where
  handed : HandsOver (due queue rounds) ((run platform { queue } rounds).1.map PacketBuf.bytes)
  ended : ∀ e ∈ (run platform { queue } rounds).2, ∃ error, e = .socket error

structure Agree (queue : List Entry) (rounds : List Round) : Prop where
  same : (run batched { queue } rounds).1 = (run portable { queue } rounds).1
  batched : Delivers batched queue rounds
  portable : Delivers portable queue rounds

/-- Interruptions come first, and no datagram behind them. -/
def Unheard : List Entry → Prop
  | .error .interrupted :: queue => Unheard queue
  | .datagram _ :: _ => False
  | _ => True

/-- Every datagram of a batch fits, and the batch is full or the queue is empty behind it; an
error that comes first is the end also for the call that is made again. -/
def Harmless : List Entry → List Round → Prop
  | _, [] => True
  | queue, x :: rounds =>
    match queue ++ x.arrived with
    | .error e :: queue => Unheard (.error e :: queue ++ rounds.flatMap Round.arrived)
    | queue =>
      let batch := window x.slots queue
      (∀ bytes ∈ batch, Fits bytes) ∧
        (x.slots ≤ batch.length ∨ queue.drop batch.length = []) ∧
        Harmless (queue.drop batch.length) rounds

attribute [local simp] recv window recvEach recvUninterrupted tryRecvMmsg batched run due Unheard
  Harmless

/-! ### One call -/

/-- The slot that holds a datagram. -/
def slot (bytes : Packet) : PacketBuf where
  start := packetHeadroom
  bytes := bytes.take readArea
  fits := by
    rw [List.length_take, readArea, packetCapacity, packetHeadroom]
    omega

theorem setReadLen_take (bytes : Packet) :
    PacketBuf.setReadLen (bytes.take readArea) = some (slot bytes) := by
  have hroom : (bytes.take readArea).length ≤ packetCapacity - packetHeadroom := by
    rw [List.length_take]
    exact Nat.min_le_left _ _
  rw [PacketBuf.setReadLen, dif_pos hroom]
  rfl

theorem slot_bytes {bytes : Packet} (h : Fits bytes) : (slot bytes).bytes = bytes :=
  List.take_of_length_le h

theorem map_slot_bytes {batch : List Packet} (h : ∀ bytes ∈ batch, Fits bytes) :
    (batch.map slot).map PacketBuf.bytes = batch := by
  rw [List.map_map]
  exact (List.map_congr_left fun bytes hbytes => slot_bytes (h bytes hbytes)).trans
    (List.map_id' batch)

variable {count : ℕ} {queue : List Entry} {socket : Socket}

theorem window_length_le : (window count queue).length ≤ count := by
  induction count generalizing queue with
  | zero => exact Nat.le_refl 0
  | succ count ih =>
    rcases queue with _ | ⟨bytes | error, queue⟩
    · exact Nat.zero_le _
    · exact Nat.succ_le_succ ih
    · exact Nat.zero_le _

theorem window_pos (bytes : Packet) (queue : List Entry) (hpos : 0 < count) :
    ∃ batch, window count (.datagram bytes :: queue) = bytes :: batch := by
  obtain ⟨n, rfl⟩ : ∃ n, count = n + 1 := ⟨count - 1, by omega⟩
  exact ⟨window n queue, rfl⟩

/-- What stands behind a batch that has left slots empty. -/
theorem drop_window (h : (window count queue).length < count) :
    queue.drop (window count queue).length = [] ∨
      ∃ error rest, queue.drop (window count queue).length = .error error :: rest := by
  induction count generalizing queue with
  | zero => exact absurd h (Nat.not_lt_zero _)
  | succ count ih =>
    rcases queue with _ | ⟨bytes | error, queue⟩
    · exact .inl rfl
    · exact ih (Nat.lt_of_succ_lt_succ h)
    · exact .inr ⟨error, queue, rfl⟩

/-- The slots are filled, or the queue is empty behind what was taken. -/
theorem recvEach_ok {received : List PacketBuf}
    (hpos : 0 < (received ++ (window count socket.queue).map slot).length)
    (h : count ≤ (window count socket.queue).length ∨
      socket.queue.drop (window count socket.queue).length = []) :
    recvEach received count socket =
      (.ok (received ++ (window count socket.queue).map slot),
        { socket with queue := socket.queue.drop (window count socket.queue).length }) := by
  induction count generalizing received socket with
  | zero => simp
  | succ count ih =>
    obtain ⟨queue, available, enabled⟩ := socket
    rcases queue with _ | ⟨bytes | error, queue⟩
    · have hreceived : 0 < received.length := by simpa [window] using hpos
      simp [hreceived]
    · simp only [recvEach, recv, setReadLen_take]
      rw [ih _ _]
      · simp
      · simp
      · simpa [window] using h
    · simp at h

/-- An error behind what was taken. -/
theorem recvEach_error {received : List PacketBuf} {error : SocketError} {rest : List Entry}
    (hlt : (window count socket.queue).length < count)
    (h : socket.queue.drop (window count socket.queue).length = .error error :: rest) :
    recvEach received count socket =
      (.error (.socket error), { socket with queue := rest }) := by
  induction count generalizing received socket with
  | zero => exact absurd hlt (Nat.not_lt_zero _)
  | succ count ih =>
    obtain ⟨queue, available, enabled⟩ := socket
    rcases queue with _ | ⟨bytes | e, queue⟩
    · cases h
    · simp only [recvEach, recv, setReadLen_take]
      exact ih (Nat.lt_of_succ_lt_succ hlt) h
    · obtain ⟨rfl, rfl⟩ : e = error ∧ queue = rest := by simpa [window] using h
      simp

theorem fault_of (bytes : Packet) : (Message.of bytes).fault = none ↔ Fits bytes := by
  unfold Message.fault Message.of Fits
  by_cases hfits : bytes.length ≤ readArea
  · have hshort : bytes.length ≤ packetCapacity - packetHeadroom := hfits
    simp [hfits, hshort, Nat.not_lt.mpr hfits]
  · simp [hfits, Nat.lt_of_not_le hfits]

theorem mapM_setReadLen (batch : List Packet) :
    (batch.map Message.of).mapM (fun m => PacketBuf.setReadLen m.bytes) =
      some (batch.map slot) := by
  induction batch with
  | nil => rfl
  | cons bytes batch ih =>
    simp only [List.map_cons, List.mapM_cons, ih, Message.of, setReadLen_take]
    rfl

theorem findSome?_fault (batch : List Packet) :
    (batch.map Message.of).findSome? Message.fault = none ↔ ∀ bytes ∈ batch, Fits bytes := by
  rw [List.findSome?_eq_none_iff, List.forall_mem_map]
  exact forall₂_congr fun bytes _ => fault_of bytes

theorem recvUninterrupted_datagram {bytes : Packet} (hpos : 0 < count) :
    recvUninterrupted count { queue := .datagram bytes :: queue } (.datagram bytes :: queue) =
      (.ok ((window count (.datagram bytes :: queue)).map Message.of),
        { queue := (Entry.datagram bytes :: queue).drop
            (window count (.datagram bytes :: queue)).length }) := by
  obtain ⟨count, rfl⟩ : ∃ n, count = n + 1 := ⟨count - 1, by omega⟩
  rfl

theorem batched_ok {bytes : Packet} (hpos : 0 < count)
    (h : ∀ x ∈ window count (.datagram bytes :: queue), Fits x) :
    batched count { queue := .datagram bytes :: queue } =
      (.ok ((window count (.datagram bytes :: queue)).map slot),
        { queue := (Entry.datagram bytes :: queue).drop
            (window count (.datagram bytes :: queue)).length }) := by
  have hle : ¬ count < (window count (.datagram bytes :: queue)).length :=
    Nat.not_lt.mpr window_length_le
  simp only [batched, tryRecvMmsg, recvUninterrupted_datagram hpos, if_neg hpos.ne',
    List.length_map, if_neg hle, (findSome?_fault _).mpr h, mapM_setReadLen, if_true]

/-- One datagram that is too long takes its batch with it. -/
theorem batched_long {bytes : Packet} (hpos : 0 < count)
    (h : ¬ ∀ x ∈ window count (.datagram bytes :: queue), Fits x) :
    ∃ text rest, batched count { queue := .datagram bytes :: queue } =
      (.error (.invalidData text), rest) := by
  have hle : ¬ count < (window count (.datagram bytes :: queue)).length :=
    Nat.not_lt.mpr window_length_le
  obtain ⟨text, htext⟩ := Option.ne_none_iff_exists'.mp (mt (findSome?_fault _).mp h)
  refine ⟨text, ?_⟩
  simp only [batched, tryRecvMmsg, recvUninterrupted_datagram hpos, if_neg hpos.ne',
    List.length_map, if_neg hle, htext, if_true]
  exact ⟨_, rfl⟩

theorem batched_nil (hpos : 0 < count) :
    batched count { queue := [] } = (.error .wouldBlock, { queue := [] }) := by
  obtain ⟨n, rfl⟩ : ∃ n, count = n + 1 := ⟨count - 1, by omega⟩
  rfl

theorem recvUninterrupted_queue (front : List Entry) :
    recvUninterrupted count { socket with queue := front } queue =
      recvUninterrupted count socket queue := by
  induction queue with
  | nil => rfl
  | cons entry queue ih => simp only [recvUninterrupted, ih]

theorem batched_interrupted (hpos : 0 < count) :
    batched count { queue := .error .interrupted :: queue } = batched count { queue } := by
  have hagain : recvUninterrupted count { queue := .error .interrupted :: queue }
      (.error .interrupted :: queue) = recvUninterrupted count { queue } queue :=
    @recvUninterrupted_queue count queue { queue } (.error .interrupted :: queue)
  simp only [batched, tryRecvMmsg, hagain, if_neg hpos.ne', if_true]

theorem batched_other {code : ℕ} (hpos : 0 < count) :
    batched count { queue := .error (.other code) :: queue } =
      (.error (.socket (.other code)), { queue }) := by
  obtain ⟨n, rfl⟩ : ∃ n, count = n + 1 := ⟨count - 1, by omega⟩
  rfl

/-- Without the system call, one way is the other. -/
theorem batched_unavailable (hpos : 0 < count) (h : socket.available = false) :
    batched count socket = portable count { socket with enabled := false } := by
  obtain ⟨queue, available, enabled⟩ := socket
  obtain rfl : available = false := h
  cases enabled with
  | false => rfl
  | true =>
    obtain ⟨n, rfl⟩ : ∃ n, count = n + 1 := ⟨count - 1, by omega⟩
    rcases queue with _ | ⟨entry, queue⟩
    · rfl
    · rfl

/-! ### Runs -/

theorem run_arrived (platform : ℕ → Socket → Received) (x : Round) (rounds : List Round) :
    run platform { queue } (x :: rounds) =
      run platform { queue := queue ++ x.arrived } ({ x with arrived := [] } :: rounds) := by
  rw [run, run, List.append_nil]

theorem tryRecvConnected_round (platform : ℕ → Socket → Received) (x : Round) :
    tryRecvConnected platform x.slots socket = platform x.slots socket :=
  if_pos x.slots_le

variable {platform : ℕ → Socket → Received} {x : Round} {rounds : List Round}

theorem run_ok {packets : List PacketBuf} {rest : List Entry}
    (h : platform x.slots { queue := queue ++ x.arrived } = (.ok packets, { queue := rest })) :
    run platform { queue } (x :: rounds) =
      (packets ++ (run platform { queue := rest } rounds).1,
        (run platform { queue := rest } rounds).2) := by
  simp only [run, tryRecvConnected_round, h]

theorem run_wouldBlock
    (h : platform x.slots { queue := queue ++ x.arrived } =
      (.error .wouldBlock, { queue := [] })) :
    run platform { queue } (x :: rounds) = run platform { queue := [] } rounds := by
  simp only [run, tryRecvConnected_round, h]

theorem run_error {e : RecvError} {rest : Socket} (hne : e ≠ .wouldBlock)
    (h : platform x.slots { queue := queue ++ x.arrived } = (.error e, rest)) :
    run platform { queue } (x :: rounds) = ([], some e) := by
  simp only [run, tryRecvConnected_round, h]

/-- Nothing is handed over, and nothing but an error of the socket ends the allocation. -/
def Silent (queue : List Entry) (rounds : List Round) : Prop :=
  (run batched { queue } rounds).1 = [] ∧
    ∀ e ∈ (run batched { queue } rounds).2, ∃ error, e = .socket error

theorem unheard_step (harrived : x.arrived = [])
    (hnext : Silent [] rounds ↔ Unheard (rounds.flatMap Round.arrived)) :
    Silent queue (x :: rounds) ↔ Unheard (queue ++ rounds.flatMap Round.arrived) := by
  induction queue with
  | nil =>
    have hrun : run batched { queue := [] } (x :: rounds) = run batched { queue := [] } rounds :=
      run_wouldBlock (by rw [harrived]; exact batched_nil x.slots_pos)
    rw [Silent, hrun]
    exact hnext
  | cons entry queue ih =>
    rcases entry with bytes | ⟨⟩ | code
    · refine iff_of_false ?_ id
      by_cases hfits : ∀ b ∈ window x.slots (.datagram bytes :: queue), Fits b
      · -- The first datagram is handed over.
        rintro ⟨hempty, -⟩
        obtain ⟨batch, hbatch⟩ := window_pos bytes queue x.slots_pos
        have hcall := batched_ok x.slots_pos hfits
        rw [← List.append_nil (Entry.datagram bytes :: queue), ← harrived] at hcall
        rw [run_ok hcall, harrived, List.append_nil, hbatch] at hempty
        cases hempty
      · rintro ⟨-, hended⟩
        obtain ⟨text, rest, hcall⟩ := batched_long x.slots_pos hfits
        rw [← List.append_nil (Entry.datagram bytes :: queue), ← harrived] at hcall
        rw [run_error (by simp) hcall] at hended
        obtain ⟨error, herror⟩ := hended _ rfl
        cases herror
    · have hrun : run batched { queue := .error .interrupted :: queue } (x :: rounds) =
          run batched { queue } (x :: rounds) := by
        simp only [run, tryRecvConnected_round, harrived, List.append_nil,
          batched_interrupted x.slots_pos]
      rw [Silent, hrun]
      exact ih
    · have hrun : run batched { queue := .error (.other code) :: queue } (x :: rounds) =
          ([], some (.socket (.other code))) :=
        run_error (by simp) (by
          rw [harrived, List.append_nil]
          exact batched_other x.slots_pos)
      refine iff_of_true ?_ trivial
      rw [Silent, hrun]
      exact ⟨rfl, fun e he => ⟨.other code, (Option.some_inj.mp he).symm⟩⟩

/-- The calls behind an error. -/
theorem unheard_iff (harrived : x.arrived = []) :
    Silent queue (x :: rounds) ↔ Unheard (queue ++ rounds.flatMap Round.arrived) := by
  induction rounds generalizing queue x with
  | nil =>
    refine unheard_step harrived ?_
    simp [Silent]
  | cons y rounds ih =>
    refine unheard_step harrived ?_
    rw [Silent, run_arrived]
    exact ih rfl

theorem HandsOver.of_fits {bytes : Packet} {rest handed : List Packet} (h : Fits bytes)
    (hover : HandsOver (bytes :: rest) (bytes :: handed)) : HandsOver rest handed := by
  generalize hall : bytes :: handed = all at hover
  cases hover with
  | fits _ hover =>
    obtain ⟨-, rfl⟩ := List.cons.inj hall
    exact hover
  | dropped hlong _ => exact absurd h hlong
  | cut hlong _ => exact absurd h hlong

theorem handsOver_append {batch rest handed : List Packet} (h : ∀ bytes ∈ batch, Fits bytes) :
    HandsOver (batch ++ rest) (batch ++ handed) ↔ HandsOver rest handed := by
  induction batch with
  | nil => rfl
  | cons bytes batch ih =>
    obtain ⟨hfits, hbatch⟩ := List.forall_mem_cons.mp h
    rw [← ih hbatch]
    exact ⟨HandsOver.of_fits hfits, HandsOver.fits hfits⟩

theorem not_handsOver_nil {bytes : Packet} {rest : List Packet} (h : Fits bytes) :
    ¬ HandsOver (bytes :: rest) [] := by
  intro hover
  cases hover with
  | dropped hlong _ => exact hlong h

theorem portable_ok (hpos : 0 < (window count queue).length)
    (h : count ≤ (window count queue).length ∨ queue.drop (window count queue).length = []) :
    portable count { queue } =
      (.ok ((window count queue).map slot),
        { queue := queue.drop (window count queue).length }) :=
  @recvEach_ok count { queue } [] (by rw [List.nil_append, List.length_map]; exact hpos) h

theorem Delivers.batch_iff {batch : List Packet} {rest : List Entry}
    (hfits : ∀ bytes ∈ batch, Fits bytes)
    (hdue : due queue (x :: rounds) = batch ++ due rest rounds)
    (hrun : run platform { queue } (x :: rounds) =
      (batch.map slot ++ (run platform { queue := rest } rounds).1,
        (run platform { queue := rest } rounds).2)) :
    Delivers platform queue (x :: rounds) ↔ Delivers platform rest rounds := by
  have hhanded : HandsOver (due queue (x :: rounds))
        ((run platform { queue } (x :: rounds)).1.map PacketBuf.bytes) ↔
      HandsOver (due rest rounds) ((run platform { queue := rest } rounds).1.map PacketBuf.bytes) := by
    rw [hdue, hrun, List.map_append, map_slot_bytes hfits]
    exact handsOver_append hfits
  constructor
  · rintro ⟨handed, ended⟩
    rw [hrun] at ended
    exact ⟨hhanded.mp handed, ended⟩
  · rintro ⟨handed, ended⟩
    refine ⟨hhanded.mpr handed, ?_⟩
    rw [hrun]
    exact ended

/-- A round in which both take the same batch. -/
theorem Agree.batch_iff {batch : List Packet} {rest : List Entry}
    (hfits : ∀ bytes ∈ batch, Fits bytes)
    (hdue : due queue (x :: rounds) = batch ++ due rest rounds)
    (hbatched : run UdpBatch.batched { queue } (x :: rounds) =
      (batch.map slot ++ (run UdpBatch.batched { queue := rest } rounds).1,
        (run UdpBatch.batched { queue := rest } rounds).2))
    (hportable : run UdpBatch.portable { queue } (x :: rounds) =
      (batch.map slot ++ (run UdpBatch.portable { queue := rest } rounds).1,
        (run UdpBatch.portable { queue := rest } rounds).2)) :
    Agree queue (x :: rounds) ↔ Agree rest rounds := by
  constructor
  · rintro ⟨same, batched, portable⟩
    rw [hbatched, hportable] at same
    exact ⟨List.append_cancel_left same, (Delivers.batch_iff hfits hdue hbatched).mp batched,
      (Delivers.batch_iff hfits hdue hportable).mp portable⟩
  · rintro ⟨same, batched, portable⟩
    refine ⟨?_, (Delivers.batch_iff hfits hdue hbatched).mpr batched,
      (Delivers.batch_iff hfits hdue hportable).mpr portable⟩
    rw [hbatched, hportable]
    exact congrArg (batch.map slot ++ ·) same

theorem portable_nil (hpos : 0 < count) :
    portable count { queue := [] } = (.error .wouldBlock, { queue := [] }) := by
  obtain ⟨n, rfl⟩ : ∃ n, count = n + 1 := ⟨count - 1, by omega⟩
  rfl

/-- A round that finds an error first. -/
theorem agree_error {error : SocketError} {rest : List Entry}
    (hqueue : queue ++ x.arrived = .error error :: rest) :
    Agree queue (x :: rounds) ↔
      Unheard (.error error :: rest ++ rounds.flatMap Round.arrived) := by
  have hdue : due queue (x :: rounds) = [] := by simp only [due, hqueue]
  obtain ⟨n, hn⟩ : ∃ n, x.slots = n + 1 := ⟨x.slots - 1, by have := x.slots_pos; omega⟩
  have hportable : run portable { queue } (x :: rounds) = ([], some (.socket error)) :=
    run_error (by simp) (show _ = (_, { queue := rest }) by
      rw [hqueue, hn]
      rfl)
  have hrun := @run_arrived queue batched x rounds
  rw [← @unheard_iff _ { x with arrived := [] } _ rfl, ← hqueue, Silent, ← hrun]
  constructor
  · rintro ⟨same, batched, -⟩
    rw [hportable] at same
    exact ⟨same, batched.ended⟩
  · rintro ⟨hempty, hended⟩
    refine ⟨?_, ⟨?_, hended⟩, ⟨?_, ?_⟩⟩
    · rw [hempty, hportable]
    · rw [hdue, hempty]
      exact .nil
    · rw [hdue, hportable]
      exact .nil
    · rw [hportable]
      exact fun e he => ⟨error, (Option.some_inj.mp he).symm⟩

/-- A round that finds a datagram first. -/
theorem agree_datagram {bytes : Packet} {rest : List Entry}
    (hqueue : queue ++ x.arrived = .datagram bytes :: rest) :
    Agree queue (x :: rounds) ↔
      (∀ b ∈ window x.slots (.datagram bytes :: rest), Fits b) ∧
        (x.slots ≤ (window x.slots (.datagram bytes :: rest)).length ∨
          (Entry.datagram bytes :: rest).drop
            (window x.slots (.datagram bytes :: rest)).length = []) ∧
        Agree ((Entry.datagram bytes :: rest).drop
          (window x.slots (.datagram bytes :: rest)).length) rounds := by
  have hdue : due queue (x :: rounds) = window x.slots (.datagram bytes :: rest) ++
      due ((Entry.datagram bytes :: rest).drop
        (window x.slots (.datagram bytes :: rest)).length) rounds := by
    simp only [due, hqueue]
  obtain ⟨batch, hbatch⟩ := window_pos bytes rest x.slots_pos
  by_cases hfits : ∀ b ∈ window x.slots (.datagram bytes :: rest), Fits b
  · rw [and_iff_right hfits]
    by_cases hwhole : x.slots ≤ (window x.slots (.datagram bytes :: rest)).length ∨
        (Entry.datagram bytes :: rest).drop
          (window x.slots (.datagram bytes :: rest)).length = []
    · rw [and_iff_right hwhole]
      have hbatched := batched_ok x.slots_pos hfits
      have hportable := portable_ok (by rw [hbatch]; exact Nat.succ_pos _) hwhole
      rw [← hqueue] at hbatched hportable
      refine Agree.batch_iff hfits hdue ?_ ?_
      · rw [← hqueue]
        exact run_ok hbatched
      · rw [← hqueue]
        exact run_ok hportable
    · -- An error stands behind the batch: the call of the portable way is in vain.
      refine iff_of_false (fun hagree => ?_) fun h => hwhole h.1
      obtain ⟨hshort, hbehind⟩ := not_or.mp hwhole
      obtain ⟨error, last, hlast⟩ :=
        (drop_window (Nat.lt_of_not_le hshort)).resolve_left hbehind
      have hcall : portable x.slots { queue := .datagram bytes :: rest } =
          (.error (.socket error), { queue := last }) :=
        @recvEach_error x.slots { queue := .datagram bytes :: rest } [] _ _
          (Nat.lt_of_not_le hshort) hlast
      rw [← hqueue] at hcall
      have hover := hagree.portable.handed
      rw [run_error (by simp) hcall, hdue, hbatch] at hover
      refine not_handsOver_nil (hfits bytes ?_) hover
      rw [hbatch]
      exact List.mem_cons_self
  · refine iff_of_false (fun hagree => ?_) fun h => hfits h.1
    obtain ⟨text, last, hcall⟩ := batched_long x.slots_pos hfits
    rw [← hqueue] at hcall
    have hended := hagree.batched.ended
    rw [run_error (by simp) hcall] at hended
    obtain ⟨error, herror⟩ := hended _ rfl
    cases herror

/-- A round of sixteen slots. -/
def sixteen (arrived : List Entry) : Round := ⟨arrived, 16, by decide, by decide⟩

theorem not_agree_long {bytes : Packet} (h : ¬ Fits bytes) :
    ¬ Agree [.datagram [1#8], .datagram bytes] [sixteen []] := by
  intro hagree
  obtain ⟨text, rest, hcall⟩ : ∃ text rest, batched 16
      { queue := [.datagram [1#8], .datagram bytes] } = (.error (.invalidData text), rest) :=
    batched_long (by decide) fun hfits => h (hfits _ (by simp))
  have hended := hagree.batched.ended
  rw [@run_error _ _ (sixteen []) _ (.invalidData text) rest (by simp) hcall] at hended
  obtain ⟨error, herror⟩ := hended _ rfl
  cases herror

end Csqtt.UdpBatch
