/-
An allocation mismatch, on its way from the core to the end of the session.

The pump tells the driver's two readers of a teardown in three accesses: the reason in the
snapshot, the flag `terminal_present`, and with the state event the cleared channel.  The
writer of the session looks at the flag in `ensure_open` and at the channel afterwards; the
reader looks at the flag in `recv`.  The session ends with what the first of the two tasks
returns, and that text decides whether a new epoch is opened.

* `inputStun_tears`, `reaches_event` — what the pump does about an accepted 437, or 400 to
  a ChannelBind, and that these accesses are its events;
* `mismatch_keeps_epoch` — no run ends the session with another error, if the writer loads
  no cleared channel behind its `ensure_open` and nothing else fails first (`Undisturbed`);
* `cleared_behind_check` — the writer that does.
-/
import Csqtt.Credentials
import Csqtt.TurnReceive
import Csqtt.TurnRejected

namespace Csqtt.Turn

open Stun Transition Text
open Credentials (SessionError)

/-! ### The texts -/

def methodName (method : BitVec 16) : String :=
  if method = 3 then "Allocate"
  else if method = 4 then "Refresh"
  else if method = 8 then "CreatePermission"
  else if method = 9 then "ChannelBind"
  else "request"

def stunSuffix (stunCode : ℕ) : String :=
  if stunCode = 0 then "" else "; STUN error " ++ toString stunCode

/-- The text of a reason; `describe` knows those that no failed request has given. -/
def Terminal.text (describe : Terminal → String) : Terminal → String
  | .request method status stunCode =>
    "TURN " ++ methodName method ++ " failed: " ++ nativeStatusText status ++ stunSuffix stunCode
  | reason => describe reason

/-- The reason names an allocation mismatch. -/
def Terminal.mismatch : Terminal → Bool
  | .request method _ stunCode => isAllocationMismatchStun method stunCode
  | _ => false

/-- `should_note_path_lost`. -/
def shouldNotePathLost (e : SessionError) : Bool :=
  if contains e.message "IDLE_PARK" || contains e.message "NET_REBIND" ||
      contains e.message "TARGET_REPAIR" then false
  else !e.errorIsAllocationMismatch

/-- The writer's tasks fail with a text alone. -/
def plainError (text : String) : SessionError := ⟨{ text }, []⟩

/-- What `TransportReader::recv` makes of the error of the receiver. -/
def readerError (text : String) : SessionError :=
  ⟨{ text := "TURN allocation receive" }, [{ text }]⟩

/-- What `error_is_allocation_mismatch` looks for in the joined texts. -/
def namesMismatch (text : String) : Bool :=
  contains (toAsciiLowercase text) "stun error 437" ||
    (contains (toAsciiLowercase text) "stun error 400" &&
      contains (toAsciiLowercase text) "channelbind")

theorem namesMismatch_append_right {b : String} (h : namesMismatch b = true) (a : String) :
    namesMismatch (a ++ b) = true := by
  simp only [namesMismatch, Bool.or_eq_true, Bool.and_eq_true] at h ⊢
  rw [toAsciiLowercase_append]
  exact h.imp (contains_append_right · _)
    (And.imp (contains_append_right · _) (contains_append_right · _))

theorem namesMismatch_text (describe : Terminal → String) {reason : Terminal}
    (h : reason.mismatch = true) : namesMismatch (reason.text describe) = true := by
  cases reason with
  | request method status stunCode =>
    simp only [Terminal.mismatch, isAllocationMismatchStun, Bool.or_eq_true, Bool.and_eq_true,
      decide_eq_true_eq] at h
    simp only [Terminal.text, namesMismatch, toAsciiLowercase_append, Bool.or_eq_true,
      Bool.and_eq_true]
    rcases h with rfl | ⟨rfl, rfl⟩
    · exact .inl (contains_append_right (by decide +kernel) _)
    · refine .inr ⟨contains_append_right (by decide +kernel) _, ?_⟩
      refine contains_append_left (contains_append_left (contains_append_left
        (contains_append_right ?_ _) _) _) _
      decide +kernel
  | _ => cases h

/-- A mismatch, by its text, and no path lost. -/
def KeepsEpoch (e : SessionError) : Prop :=
  e.errorIsAllocationMismatch = true ∧ shouldNotePathLost e = false

instance (e : SessionError) : Decidable (KeepsEpoch e) := inferInstanceAs (Decidable (_ ∧ _))

theorem keepsEpoch_of_mismatch {e : SessionError} (h : e.errorIsAllocationMismatch = true) :
    KeepsEpoch e := by
  refine ⟨h, ?_⟩
  rw [shouldNotePathLost, h]
  split <;> rfl

theorem keepsEpoch_plainError (describe : Terminal → String) {reason : Terminal}
    (h : reason.mismatch = true) : KeepsEpoch (plainError (reason.text describe)) :=
  keepsEpoch_of_mismatch (namesMismatch_text describe h)

theorem keepsEpoch_readerError (describe : Terminal → String) {reason : Terminal}
    (h : reason.mismatch = true) : KeepsEpoch (readerError (reason.text describe)) := by
  refine keepsEpoch_of_mismatch ?_
  show namesMismatch (("TURN allocation receive" ++ "\n") ++ reason.text describe) = true
  exact namesMismatch_append_right (namesMismatch_text describe h) _

/-! ### The response, and its three events -/

namespace Inner

variable {P : Primitives} {s : Inner} {packet : Bytes} {m : Message} {p : Pending} {code : ℕ}

/-- The packet is an error response that is believed and calls for another allocation. -/
structure TearsDown (P : Primitives) (s : Inner) (packet : Bytes) (m : Message) (p : Pending)
    (code : ℕ) : Prop where
  decoded : Message.decode packet = .ok m
  refuses : m.class = .error
  fingerprint : m.fingerprintValid P ≠ some false
  answers : s.pending.find? (·.answeredBy m) = some p
  believed : s.unauthentic P packet p m = false
  coded : errorCode m = some code
  recreate : requiresAllocationRecreate p.operation code = true

/-- The report of the response, the result of the request, and the end. -/
def teardownEvents (s : Inner) (p : Pending) (code : ℕ) : List NativeEvent :=
  [{ kind := .stunResponseError, method := p.operation.method, stunCode := code, state := s.state },
    { kind := .requestComplete, method := p.operation.method, status := resultProtocol,
      stunCode := code, state := s.state, channel := s.channel.getD 0, address := s.relay },
    { kind := .state, state := .destroying, previousState := s.state }]

theorem TearsDown.mismatch (h : TearsDown P s packet m p code) :
    isAllocationMismatchStun p.operation.method code = true := by
  have hrecreate := h.recreate
  simp only [requiresAllocationRecreate, Bool.or_eq_true, Bool.and_eq_true,
    decide_eq_true_eq] at hrecreate
  rcases hrecreate with rfl | ⟨hop, rfl⟩
  · rfl
  · rw [hop]
    rfl

theorem pushEvent_room (s : Inner) (event : NativeEvent) (h : s.events.length < eventCapacity) :
    (s.pushEvent event).events = s.events ++ [event] :=
  if_neg (Nat.ne_of_lt h)

theorem destroyAllocation_room {s : Inner} {operation : Operation} (hkeep : operation ≠ .deallocate)
    (hready : s.state = .ready) (hroom : s.events.length + 2 ≤ eventCapacity) (status : ℤ)
    (stunCode : ℕ) :
    (s.destroyAllocation operation status stunCode).events = s.events ++
        [{ kind := .requestComplete, method := operation.method, status, stunCode
           state := s.state, channel := s.channel.getD 0, address := s.relay },
          { kind := .state, state := .destroying, previousState := s.state }] ∧
      (s.destroyAllocation operation status stunCode).relay = none := by
  have hcomplete : (s.complete operation status stunCode).events = s.events ++ [_] :=
    pushEvent_room s _ (by omega)
  rw [destroyAllocation, if_neg hkeep, setState, if_neg]
  · refine ⟨?_, rfl⟩
    rw [pushEvent_room]
    · show (s.complete operation status stunCode).events ++ [_] = _
      rw [hcomplete, List.append_assoc]
      rfl
    · show (s.complete operation status stunCode).events.length < eventCapacity
      rw [hcomplete, List.length_append, List.length_singleton]
      omega
  · show s.state ≠ .destroying
    rw [hready]
    exact TurnState.noConfusion

/-- A READY core tells the driver in three events, if the ring has room for them. -/
theorem inputStun_tears (env : Env) (h : TearsDown P s packet m p code) (hbase : Base s)
    (hready : s.state = .ready) (hroom : s.events.length + 3 ≤ eventCapacity) :
    (NativeCore.inputStun P env s packet).2.events = s.events ++ s.teardownEvents p code ∧
      (NativeCore.inputStun P env s packet).2.relay = none := by
  have hmem : p ∈ s.pending := List.mem_of_find?_eq_some h.answers
  have hmethod : m.method = p.operation.method := by
    have hanswered := List.find?_some h.answers
    simp only [Pending.answeredBy, Bool.and_eq_true, decide_eq_true_eq] at hanswered
    exact hanswered.2.symm
  have hkeep : p.operation ≠ .deallocate := by
    intro hop
    have hhome := hbase.home p hmem
    rw [hready, hop] at hhome
    cases hhome
  have hcode : code ≠ 0 := by
    rintro rfl
    have hrecreate := h.recreate
    simp [requiresAllocationRecreate] at hrecreate
  rw [inputStun_answers h.decoded (.inr h.refuses) h.fingerprint h.answers, inputResponse,
    h.believed, if_neg Bool.false_ne_true, inputAccepted, h.refuses, if_neg (by simp), if_pos rfl]
  simp only [inputError, h.coded, Option.getD_some, if_neg hcode, h.recreate, if_true]
  have hreport : ((s.withdraw m).reportError m 0 code (s.withdraw m).state).events =
      s.events ++ [{ kind := .stunResponseError, method := p.operation.method, stunCode := code
                     state := s.state }] := by
    rw [← hmethod]
    exact pushEvent_room (s.withdraw m) _ (by
      show s.events.length < eventCapacity
      omega)
  obtain ⟨hevents, hrelay⟩ := destroyAllocation_room
    (s := (s.withdraw m).reportError m 0 code (s.withdraw m).state) hkeep hready (by
      rw [hreport, List.length_append, List.length_singleton]
      omega) resultProtocol code
  refine ⟨?_, hrelay⟩
  rw [hevents, hreport, List.append_assoc]
  rfl

end Inner

/-! ### The accesses of the pump -/

/-- One access of the driver to what it shares with the session, or to a variable of the
pump. -/
inductive Access where
  /-- `fail`, up to the reason in the snapshot. -/
  | insert (reason : Terminal)
  /-- `terminal_present`. -/
  | raise
  /-- Any other `send_modify`. -/
  | update
  | storeChannel (channel : BitVec 16)
  /-- `closing`. -/
  | close
  /-- `unexpected_destroy`. -/
  | destroying
  /-- `channel_rebind_exhausted`. -/
  | exhausted
  /-- The next pump begins. -/
  | begin
  /-- The check behind the events. -/
  | finish

/-- The access does nothing that the tasks could fail of, except for the cleared channel. -/
def Access.calm : Access → Bool
  | .update | .storeChannel _ | .exhausted | .begin | .finish => true
  | .insert _ | .raise | .close | .destroying => false

/-- The pump returns the error: `fail`, and `request_cleanup`. -/
def bail (error : PumpError) : List Access :=
  [.insert (.pump error), .close, .storeChannel 0, .begin]

/-- One event of `pump_native`. -/
def accesses (core : Inner) (peer : SocketAddr) (e : NativeEvent) : List Access :=
  match e.kind with
  | .state =>
    (if e.state ≠ .ready then [.storeChannel 0] else []) ++ [.update] ++
      (if e.state = .destroying then [.destroying] else [])
  | .requestComplete =>
    let mismatch := isAllocationMismatchStun e.method e.stunCode
    .update ::
      if (e.status ≠ 0 ∨ e.stunCode ≠ 0) ∧ (¬ isRetryableMaintenance e.method ∨ mismatch) then
        [.insert (.request e.method e.status e.stunCode)]
      else []
  | .stunResponseError =>
    if isAllocationMismatchStun e.method e.stunCode then
      [.insert (.request e.method e.status e.stunCode)]
    else []
  | .channelBound =>
    match e.address with
    | none => bail .addressFamily
    | some eventPeer =>
      if eventPeer ≠ peer then [.insert (.unexpectedPeer eventPeer)]
      else if ¬ (0x4000 ≤ e.channel ∧ e.channel ≤ 0x7fff) then [.insert (.invalidChannel e.channel)]
      else [.storeChannel e.channel, .update]
  | .relayAddress =>
    match e.address, core.relay with
    | none, _ => bail .addressFamily
    | some _, none => bail .relayUnavailable
    | some relay, some queried => if queried ≠ relay then bail .relayMismatch else [.update]
  | .controlOverflow => [.insert (.controlOverflow e.dropped)]
  | .forcedDestroy => [.insert .forceDestroyed]
  | .channelRebindExhausted => [.exhausted]
  | .eventOverflow => [.insert (.eventOverflow e.dropped)]

/-! ### The two tasks of the session -/

/-- Where the writer is; a command answers its caller with the error and goes on. -/
inductive WriterPc where
  | idle
  /-- `closing` was not set. -/
  | entered (command : Bool)
  /-- `ensure_open` has passed. -/
  | opened (command : Bool)
  | loaded (command : Bool) (channel : BitVec 16)
  | failed (error : SessionError)

structure SessionTasks (α : Type*) where
  /-- The snapshot, the flags and the receiver. -/
  recv : Receiving α := { pc := .idle none }
  channel : BitVec 16
  unexpectedDestroy : Bool := false
  channelRebindExhausted : Bool := false
  /-- What the driver does next. -/
  todo : List Access
  writer : WriterPc := .idle
  reader : Option SessionError := none
  /-- The error that `run_allocated_session` has taken from one of them. -/
  ended : Option SessionError := none

inductive SessionLabel (α : Type*) where
  /-- The next access of the driver. -/
  | driver
  /-- Between two pumps the driver fails: what it sends, what it receives. -/
  | driverFails (reason : Terminal)
  | stash (packet : α)
  | deliver (packet : α)
  /-- The driver is gone, and its end of `incoming`. -/
  | dropIncoming
  /-- The writer begins to send. -/
  | write (command : Bool)
  /-- The next step of the writer. -/
  | writer
  /-- The writer's packet or its transport fails. -/
  | writeFails (error : SessionError)
  | reader
  /-- The session looks at its tasks. -/
  | settle

namespace SessionTasks

variable {α : Type*} {s s' : SessionTasks α}

/-- The driver makes an access. -/
def perform (s : SessionTasks α) : Access → SessionTasks α
  | .insert reason =>
    if s.recv.closing then s
    else
      { s with
        recv := { s.recv with
          terminal := s.recv.terminal.or (some reason), version := s.recv.version + 1 }
        todo := if s.recv.terminal.isNone then .raise :: s.todo else s.todo }
  | .raise => { s with recv := { s.recv with terminalPresent := true } }
  | .update => { s with recv := { s.recv with version := s.recv.version + 1 } }
  | .storeChannel channel => { s with channel }
  | .close => { s with recv := { s.recv with closing := true } }
  | .destroying => { s with unexpectedDestroy := s.unexpectedDestroy || !s.recv.closing }
  | .exhausted => { s with channelRebindExhausted := true }
  | .begin => { s with unexpectedDestroy := false, channelRebindExhausted := false }
  | .finish =>
    if s.unexpectedDestroy ∧ s.recv.reason.isNone then
      { s with todo := .insert (if s.channelRebindExhausted then .rebindExhausted
        else .unexpectedDestroying) :: s.todo }
    else s

def drive (s : SessionTasks α) : SessionTasks α :=
  match s.todo with
  | [] => s
  | a :: todo => { s with todo }.perform a

/-- The writer's send returns an error. -/
def writeFailed (s : SessionTasks α) (command : Bool) (error : SessionError) : SessionTasks α :=
  { s with writer := if command then .idle else .failed error }

variable (describe : Terminal → String)

/-- The next step of `send_with_duplicate`, or of `send_data_batch`. -/
def writeOne (s : SessionTasks α) : Option (SessionTasks α) :=
  match s.writer with
  | .idle | .failed _ => none
  | .entered command =>
    match s.recv.reason with
    | some reason => some (s.writeFailed command (plainError (reason.text describe)))
    | none => some { s with writer := .opened command }
  | .opened command =>
    if s.channel = 0 then some (s.writeFailed command (plainError "TURN ChannelBind обязателен"))
    else some { s with writer := .loaded command s.channel }
  | .loaded _ _ => some { s with writer := .idle }

/-- The next step of `reader_loop`. -/
def readOne (s : SessionTasks α) : Option (SessionTasks α) :=
  if s.reader.isSome then none
  else
    match s.recv.pc with
    | .idle (some (.failed reason)) =>
      some { s with reader := some (readerError (reason.text describe)) }
    | .idle (some .closed) => some { s with reader := some (readerError "TURN allocation closed") }
    | .idle _ => some { s with recv := { s.recv with pc := .check } }
    | _ => s.recv.drive.map fun recv => { s with recv }

def step (s : SessionTasks α) : SessionLabel α → Option (SessionTasks α)
  | .driver => some s.drive
  | .driverFails reason =>
    match s.todo with
    | [] => some { s with todo := [.insert reason, .close, .storeChannel 0] }
    | _ => none
  | .stash packet => some { s with recv := s.recv.stashProtected packet }
  | .deliver packet =>
    if s.recv.incomingClosed then none
    else some { s with recv := { s.recv with incoming := s.recv.incoming ++ [packet] } }
  | .dropIncoming =>
    -- every way out of the driver loop is behind `closing`
    if s.recv.closing then some { s with recv := { s.recv with incomingClosed := true } } else none
  | .write command =>
    match s.writer with
    | .idle =>
      if s.recv.closing then some (s.writeFailed command (plainError "TURN allocation closing"))
      else some { s with writer := .entered command }
    | _ => none
  | .writer => s.writeOne describe
  | .writeFails error =>
    match s.writer with
    | .idle => some (s.writeFailed false error)
    | .loaded command _ => some (s.writeFailed command error)
    | _ => none
  | .reader => s.readOne describe
  | .settle =>
    match s.ended, s.writer, s.reader with
    | none, .failed error, _ => some { s with ended := some error }
    | none, _, some error => some { s with ended := some error }
    | _, _, _ => none

/-- The session that a pump finds when the core has these events. -/
def upto (core : Inner) (peer : SocketAddr) (channel : BitVec 16) : SessionTasks α :=
  { channel, todo := core.events.flatMap (accesses core peer) ++ [.finish] }

/-! ### The accesses are the events -/

/-- What an access that nobody interrupts does to the state of a pump. -/
def effect (p : Pump) : Access → Pump
  | .insert reason => p.fail reason
  | .storeChannel channel => { p with shared := { p.shared with channel } }
  | .close => { p with shared := { p.shared with closing := true } }
  | .destroying => { p with unexpectedDestroy := p.unexpectedDestroy || !p.shared.closing }
  | .exhausted => { p with channelRebindExhausted := true }
  | .begin => { p with unexpectedDestroy := false, channelRebindExhausted := false }
  | .finish => { p with shared := p.finish }
  | .raise | .update => p

/-- What both know, between two accesses. -/
structure Mirrors (s : SessionTasks α) (p : Pump) : Prop where
  terminal : s.recv.terminal = p.shared.snapshot.terminal
  present : s.recv.terminalPresent = s.recv.terminal.isSome
  closing : s.recv.closing = p.shared.closing
  channel : s.channel = p.shared.channel
  unexpected : s.unexpectedDestroy = p.unexpectedDestroy
  exhausted : s.channelRebindExhausted = p.channelRebindExhausted

/-- The driver goes on until it has only `rest` to do. -/
def Reaches (s : SessionTasks α) (p : Pump) (rest : List Access) : Prop :=
  ∃ n, (drive^[n] s).todo = rest ∧ Mirrors (drive^[n] s) p

theorem Reaches.drive {p : Pump} {rest : List Access} (h : Reaches s.drive p rest) :
    Reaches s p rest := by
  obtain ⟨n, h⟩ := h
  exact ⟨n + 1, h⟩

theorem fail_first {p : Pump} (hopen : p.shared.closing = false)
    (hnone : p.shared.snapshot.terminal = none) (reason : Terminal) :
    p.fail reason = { p with shared := { p.shared with
      snapshot := { p.shared.snapshot with terminal := some reason } } } := by
  rw [Pump.fail, DriverShared.fail, if_neg]
  simp [hopen, hnone]

theorem fail_named {p : Pump} {first : Terminal}
    (hsome : p.shared.snapshot.terminal = some first) (reason : Terminal) :
    p.fail reason = p := by
  rw [Pump.fail, DriverShared.fail, if_pos (.inr (by rw [hsome]; rfl))]

theorem reaches_insert {p : Pump} {reason : Terminal} {rest : List Access} (h : Mirrors s p)
    (htodo : s.todo = .insert reason :: rest) : Reaches s (p.fail reason) rest := by
  refine Reaches.drive ?_
  have hdrive : s.drive = { s with todo := rest }.perform (.insert reason) := by
    rw [SessionTasks.drive, htodo]
  obtain ⟨hterminal, hpresent, hclosing, hchannel, hunexpected, hexhausted⟩ := h
  rw [hdrive, perform]
  cases hopen : s.recv.closing with
  | true =>
    rw [Pump.fail_closed (hclosing.symm.trans hopen)]
    exact ⟨0, rfl, hterminal, hpresent, hclosing, hchannel, hunexpected, hexhausted⟩
  | false =>
    cases hfirst : s.recv.terminal with
    | some first =>
      rw [fail_named (hterminal.symm.trans hfirst)]
      refine ⟨0, rfl, ?_, ?_, ?_, hchannel, hunexpected, hexhausted⟩
      · exact hfirst.symm.trans hterminal
      · exact hpresent.trans (congrArg Option.isSome hfirst)
      · exact hclosing
    | none =>
      rw [fail_first (hclosing.symm.trans hopen) (hterminal.symm.trans hfirst)]
      -- the first reason raises the flag as well
      exact ⟨1, rfl, rfl, rfl, hclosing, hchannel, hunexpected, hexhausted⟩

theorem reaches_access {p : Pump} {a : Access} {rest : List Access} (h : Mirrors s p)
    (htodo : s.todo = a :: rest) (hraise : a ≠ .raise) : Reaches s (effect p a) rest := by
  have hdrive : s.drive = { s with todo := rest }.perform a := by
    rw [SessionTasks.drive, htodo]
  obtain ⟨hterminal, hpresent, hclosing, hchannel, hunexpected, hexhausted⟩ := id h
  cases a with
  | insert reason => exact reaches_insert h htodo
  | raise => exact absurd rfl hraise
  | update =>
    refine Reaches.drive ?_
    rw [hdrive]
    exact ⟨0, rfl, hterminal, hpresent, hclosing, hchannel, hunexpected, hexhausted⟩
  | storeChannel channel =>
    refine Reaches.drive ?_
    rw [hdrive]
    exact ⟨0, rfl, hterminal, hpresent, hclosing, rfl, hunexpected, hexhausted⟩
  | close =>
    refine Reaches.drive ?_
    rw [hdrive]
    exact ⟨0, rfl, hterminal, hpresent, rfl, hchannel, hunexpected, hexhausted⟩
  | destroying =>
    refine Reaches.drive ?_
    rw [hdrive]
    refine ⟨0, rfl, hterminal, hpresent, hclosing, hchannel, ?_, hexhausted⟩
    show (s.unexpectedDestroy || !s.recv.closing) = (p.unexpectedDestroy || !p.shared.closing)
    rw [hunexpected, hclosing]
  | exhausted =>
    refine Reaches.drive ?_
    rw [hdrive]
    exact ⟨0, rfl, hterminal, hpresent, hclosing, hchannel, hunexpected, rfl⟩
  | begin =>
    refine Reaches.drive ?_
    rw [hdrive]
    exact ⟨0, rfl, hterminal, hpresent, hclosing, hchannel, rfl, rfl⟩
  | finish =>
    refine Reaches.drive ?_
    have hreason : s.recv.reason.isNone = p.shared.snapshot.terminal.isNone := by
      rw [Receiving.reason, hpresent, ← hterminal]
      cases s.recv.terminal <;> rfl
    have hcond : (p.unexpectedDestroy = true ∧ p.shared.snapshot.terminal.isNone = true) ↔
        (s.unexpectedDestroy = true ∧ s.recv.reason.isNone = true) := by
      rw [hunexpected, hreason]
    rw [hdrive, perform]
    by_cases hlate : s.unexpectedDestroy = true ∧ s.recv.reason.isNone = true
    · have heffect : effect p .finish = p.fail (if s.channelRebindExhausted then .rebindExhausted
          else .unexpectedDestroying) := by
        rw [effect, Pump.finish, if_pos (hcond.mpr hlate), hexhausted]
        rfl
      rw [heffect, if_pos hlate]
      exact reaches_insert ⟨hterminal, hpresent, hclosing, hchannel, hunexpected, hexhausted⟩ rfl
    · have heffect : effect p .finish = p := by
        rw [effect, Pump.finish, if_neg (hcond.not.mpr hlate)]
      rw [heffect, if_neg hlate]
      exact ⟨0, rfl, hterminal, hpresent, hclosing, hchannel, hunexpected, hexhausted⟩

theorem reaches_accesses {p : Pump} (as : List Access) {rest : List Access} (h : Mirrors s p)
    (htodo : s.todo = as ++ rest) (hraise : .raise ∉ as) : Reaches s (as.foldl effect p) rest := by
  induction as generalizing s p with
  | nil => exact ⟨0, htodo, h⟩
  | cons a as ih =>
    rw [List.mem_cons, not_or] at hraise
    obtain ⟨n, hrest, hmirrors⟩ := reaches_access h htodo (Ne.symm hraise.1)
    obtain ⟨k, hk⟩ := ih hmirrors hrest hraise.2
    refine ⟨k + n, ?_⟩
    rw [Function.iterate_add_apply]
    exact hk

/-- The two agree on what the tasks can see, and in the variables of the pump. -/
structure Agree (p q : Pump) : Prop where
  terminal : q.shared.snapshot.terminal = p.shared.snapshot.terminal
  closing : q.shared.closing = p.shared.closing
  channel : q.shared.channel = p.shared.channel
  unexpected : q.unexpectedDestroy = p.unexpectedDestroy
  exhausted : q.channelRebindExhausted = p.channelRebindExhausted

theorem Mirrors.agree {p q : Pump} (h : Mirrors s p) (hpq : Agree p q) : Mirrors s q :=
  ⟨h.terminal.trans hpq.terminal.symm, h.present, h.closing.trans hpq.closing.symm,
    h.channel.trans hpq.channel.symm, h.unexpected.trans hpq.unexpected.symm,
    h.exhausted.trans hpq.exhausted.symm⟩

theorem effect_noteCompletion (p : Pump) (method : BitVec 16) (status : ℤ) (stunCode : ℕ) :
    Agree p { p with shared := p.shared.noteCompletion method status stunCode } := by
  refine ⟨?_, rfl, rfl, rfl, rfl⟩
  simp only [DriverShared.noteCompletion]
  split_ifs <;> rfl

theorem Agree.refl (p : Pump) : Agree p p := ⟨rfl, rfl, rfl, rfl, rfl⟩

theorem Agree.fail {p q : Pump} (h : Agree p q) (reason : Terminal) :
    Agree (p.fail reason) (q.fail reason) := by
  obtain ⟨hterminal, hclosing, hchannel, hunexpected, hexhausted⟩ := id h
  cases hopen : p.shared.closing with
  | true =>
    rw [Pump.fail_closed hopen, Pump.fail_closed (hclosing.trans hopen)]
    exact h
  | false =>
    cases hfirst : p.shared.snapshot.terminal with
    | some first =>
      rw [fail_named hfirst, fail_named (hterminal.trans hfirst)]
      exact h
    | none =>
      rw [fail_first hopen hfirst, fail_first (hclosing.trans hopen) (hterminal.trans hfirst)]
      exact ⟨rfl, hclosing, hchannel, hunexpected, hexhausted⟩

/-- A failure that the driver reports only while it is not closing. -/
theorem Agree.fail_open {p q : Pump} (h : Agree p q) {c : Prop} [Decidable c] (reason : Terminal) :
    Agree ((if c then [Access.insert reason] else []).foldl effect p)
      (if ¬ q.shared.closing = true ∧ c then q.fail reason else q) := by
  by_cases hc : c
  · rw [if_pos hc]
    by_cases hclosing : q.shared.closing = true
    · rw [if_neg fun hboth => hboth.1 hclosing]
      show Agree (p.fail reason) q
      rw [Pump.fail_closed (h.closing.symm.trans hclosing)]
      exact h
    · rw [if_pos ⟨hclosing, hc⟩]
      exact h.fail reason
  · rw [if_neg hc, if_neg fun hboth => hc hboth.2]
    exact h

/-- The accesses of an event come to what `pump_native` does with it. -/
theorem event_agrees {core : Inner} {peer : SocketAddr} {p q : Pump} {e : NativeEvent}
    (h : p.event core peer e = .ok q) : Agree ((accesses core peer e).foldl effect p) q := by
  have hsame : ∀ {p' q' : Pump}, Agree p' q' → q' = q → Agree p' q :=
    fun hagree heq => heq ▸ hagree
  -- by the kind of the event, as `pump_native` looks at it
  simp only [Pump.event] at h
  cases hkind : e.kind with
  | state =>
    simp only [hkind] at h
    obtain rfl := Except.ok.inj h
    simp only [accesses, hkind]
    cases e.state <;>
      exact ⟨rfl, rfl, rfl, by simp [effect], rfl⟩
  | requestComplete =>
    simp only [hkind] at h
    have hnoted := effect_noteCompletion p e.method e.status e.stunCode
    have hfail := hnoted.fail_open (c := (e.status ≠ 0 ∨ e.stunCode ≠ 0) ∧
      (¬ isRetryableMaintenance e.method = true ∨
        isAllocationMismatchStun e.method e.stunCode = true))
      (.request e.method e.status e.stunCode)
    simp only [accesses, hkind, List.foldl_cons]
    refine hsame hfail ?_
    split at h
    · rename_i hcond
      rw [if_pos ⟨hcond.2.1, hcond.1, hcond.2.2⟩]
      exact Except.ok.inj h
    · rename_i hcond
      rw [if_neg fun hboth => hcond ⟨hboth.2.1, hboth.1, hboth.2.2⟩]
      exact Except.ok.inj h
  | stunResponseError =>
    simp only [hkind] at h
    have hfail := (Agree.refl p).fail_open
      (c := isAllocationMismatchStun e.method e.stunCode = true)
      (.request e.method e.status e.stunCode)
    simp only [accesses, hkind]
    split at h
    · rename_i hcond
      obtain rfl := Except.ok.inj h
      rw [if_pos hcond] at hfail
      exact hfail
    · rename_i hcond
      obtain rfl := Except.ok.inj h
      rw [if_neg hcond] at hfail
      exact hfail
  | channelBound =>
    simp only [accesses, hkind]
    cases haddress : e.address with
    | none => simp [hkind, haddress] at h
    | some eventPeer =>
      simp only [hkind, haddress] at h
      by_cases hpeer : eventPeer ≠ peer
      · rw [if_pos hpeer] at h
        obtain rfl := Except.ok.inj h
        simp only [if_pos hpeer]
        exact .refl _
      rw [if_neg hpeer] at h
      simp only [if_neg hpeer]
      split at h
      · rename_i hrange
        obtain rfl := Except.ok.inj h
        rw [if_pos hrange]
        exact .refl _
      · rename_i hrange
        obtain rfl := Except.ok.inj h
        rw [if_neg hrange]
        exact ⟨rfl, rfl, rfl, rfl, rfl⟩
  | relayAddress =>
    simp only [accesses, hkind]
    cases haddress : e.address with
    | none => simp [hkind, haddress] at h
    | some relay =>
      cases hrelay : core.relay with
      | none => simp [hkind, haddress, hrelay] at h
      | some queried =>
        simp only [hkind, haddress, hrelay] at h
        split at h
        · cases h
        · rename_i hqueried
          obtain rfl := Except.ok.inj h
          simp only [if_neg hqueried]
          exact ⟨rfl, rfl, rfl, rfl, rfl⟩
  | controlOverflow =>
    simp only [hkind] at h
    obtain rfl := Except.ok.inj h
    simp only [accesses, hkind]
    exact .refl _
  | forcedDestroy =>
    simp only [hkind] at h
    obtain rfl := Except.ok.inj h
    simp only [accesses, hkind, List.foldl_cons, List.foldl_nil, effect]
    split
    · rename_i hclosing
      rw [Pump.fail_closed hclosing]
      exact .refl p
    · exact .refl _
  | eventOverflow =>
    simp only [hkind] at h
    obtain rfl := Except.ok.inj h
    simp only [accesses, hkind]
    exact .refl _
  | channelRebindExhausted =>
    simp only [hkind] at h
    obtain rfl := Except.ok.inj h
    simp only [accesses, hkind]
    exact .refl _

theorem raise_not_mem_accesses (core : Inner) (peer : SocketAddr) (e : NativeEvent) :
    .raise ∉ accesses core peer e := by
  simp only [accesses, bail]
  split <;> repeat' split
  all_goals simp

/-- From event to event the driver of the tasks and `pump_native` keep the same view. -/
theorem reaches_event {core : Inner} {peer : SocketAddr} {p q : Pump} {e : NativeEvent}
    {rest : List Access} (h : p.event core peer e = .ok q) (hmirrors : Mirrors s p)
    (htodo : s.todo = accesses core peer e ++ rest) : Reaches s q rest := by
  obtain ⟨n, hrest, hreached⟩ :=
    reaches_accesses _ hmirrors htodo (raise_not_mem_accesses core peer e)
  exact ⟨n, hrest, hreached.agree (event_agrees h)⟩

/-! ### A pump that names the mismatch first -/

/-- Before a mismatch is named nothing else is, and nothing ends. -/
def Plan : Bool → List Access → Prop
  | _, [] => True
  | named, .insert reason :: rest => (named = true ∨ reason.mismatch = true) ∧ Plan true rest
  | named, a :: rest => (named = true ∨ a.calm = true) ∧ Plan named rest

theorem plan_true (todo : List Access) : Plan true todo := by
  induction todo with
  | nil => trivial
  | cons a todo ih =>
    cases a with
    | insert reason => exact ⟨.inl rfl, ih⟩
    | _ => exact ⟨.inl rfl, ih⟩

theorem Plan.tail {named : Bool} {a : Access} {rest : List Access} (h : Plan named (a :: rest))
    (ha : named = true ∨ ∀ reason, a ≠ .insert reason) : Plan named rest := by
  cases a with
  | insert reason =>
    obtain rfl := ha.resolve_right fun hne => hne reason rfl
    exact plan_true rest
  | _ => exact h.2

theorem plan_append {calm : List Access} (h : ∀ a ∈ calm, a.calm = true) (named : Bool)
    {rest : List Access} (hrest : Plan named rest) : Plan named (calm ++ rest) := by
  induction calm with
  | nil => exact hrest
  | cons a calm ih =>
    have ha : a.calm = true := h a List.mem_cons_self
    have hcalm := ih fun b hb => h b (List.mem_cons_of_mem a hb)
    cases a with
    | insert reason => cases ha
    | _ => exact ⟨.inr ha, hcalm⟩

/-- An event that alarms nobody, and can be looked at. -/
theorem calm_accesses {core : Inner} {peer : SocketAddr} {e : NativeEvent} (hsane : Sane core e)
    (hquiet : ¬ Alarming peer e) : ∀ a ∈ accesses core peer e, a.calm = true := by
  obtain ⟨hbound, hrelay⟩ := hsane
  simp only [accesses]
  cases hkind : e.kind with
  | state =>
    simp only [Alarming, hkind] at hquiet
    simp only [if_neg hquiet]
    split <;> simp [Access.calm]
  | requestComplete =>
    simp only [Alarming, hkind] at hquiet
    simp only [if_neg hquiet]
    simp [Access.calm]
  | stunResponseError =>
    simp only [Alarming, hkind] at hquiet
    simp only [if_neg hquiet]
    simp
  | channelBound =>
    obtain ⟨address, haddress⟩ := Option.isSome_iff_exists.mp (hbound hkind)
    simp only [Alarming, hkind, haddress, not_or, not_not] at hquiet
    simp only [haddress]
    rw [if_neg (by simpa using hquiet.1), if_neg (by simpa using hquiet.2)]
    simp [Access.calm]
  | relayAddress =>
    obtain ⟨hsome, hsame⟩ := hrelay hkind
    obtain ⟨address, haddress⟩ := Option.isSome_iff_exists.mp hsome
    rw [haddress] at hsame
    simp [haddress, hsame, Access.calm]
  | channelRebindExhausted => simp [Access.calm]
  | controlOverflow => simp [Alarming, hkind] at hquiet
  | forcedDestroy => simp [Alarming, hkind] at hquiet
  | eventOverflow => simp [Alarming, hkind] at hquiet

/-- The three events of a teardown: the report comes first. -/
theorem plan_teardown {P : Primitives} {core t : Inner} {packet : Bytes} {m : Message}
    {p : Pending} {code : ℕ} (h : core.TearsDown P packet m p code) (peer : SocketAddr) :
    Plan false ((core.teardownEvents p code).flatMap (accesses t peer) ++ [.finish]) := by
  have hmismatch := h.mismatch
  simp only [Inner.teardownEvents, List.flatMap_cons, accesses, hmismatch, if_true,
    List.cons_append, List.nil_append]
  exact ⟨.inr hmismatch, plan_true _⟩

/-! ### The runs -/

/-- Nobody has failed of anything but a mismatch so far. -/
structure Sound (s : SessionTasks α) : Prop where
  named : ∀ reason, s.recv.terminal = some reason → reason.mismatch = true
  flagged : s.recv.terminalPresent = true → s.recv.terminal.isSome = true
  raised : s.recv.terminal.isSome = true →
    s.recv.terminalPresent = true ∨ s.todo.head? = some .raise
  plan : Plan s.recv.terminal.isSome s.todo
  unexpected : s.unexpectedDestroy = true → s.recv.terminal.isSome = true
  closing : s.recv.closing = true → s.recv.terminalPresent = true
  dropped : s.recv.incomingClosed = true → s.recv.closing = true
  received : ∀ reason, s.recv.pc = .idle (some (.failed reason)) → reason.mismatch = true
  answered : s.recv.pc ≠ .idle (some .closed)
  writer : ∀ error, s.writer = .failed error → KeepsEpoch error
  reader : ∀ error, s.reader = some error → KeepsEpoch error

/-- A session that is over is over because of a mismatch. -/
def Decided (s : SessionTasks α) : Prop := ∀ error, s.ended = some error → KeepsEpoch error

/-- Until the session is over: no failure of the driver comes before a reason, no other
failure meets the writer, and the writer finds no cleared channel behind its `ensure_open`. -/
def Undisturbed (s : SessionTasks α) : SessionLabel α → Prop
  | .driverFails _ => s.ended = none → s.recv.terminal.isSome = true
  | .write command => s.ended = none → command = true ∨ s.recv.closing = false
  | .writer =>
    match s.writer with
    | .opened command => s.ended = none → command = true ∨ s.channel ≠ 0
    | _ => True
  | .writeFails error => s.ended = none → KeepsEpoch error
  | _ => True

instance (s : SessionTasks α) (l : SessionLabel α) : Decidable (Undisturbed s l) := by
  cases l <;> unfold Undisturbed
  case writer => cases s.writer <;> infer_instance
  all_goals infer_instance

theorem Sound.reason_mismatch (h : Sound s) {reason : Terminal}
    (hreason : s.recv.reason = some reason) : reason.mismatch = true := by
  rw [Receiving.reason] at hreason
  split at hreason
  · exact h.named reason hreason
  · cases hreason

/-- Unless it is about to, the driver has raised the flag. -/
theorem Sound.present (h : Sound s) (hsome : s.recv.terminal.isSome = true)
    (hhead : s.todo.head? ≠ some .raise) : s.recv.terminalPresent = true :=
  (h.raised hsome).resolve_right hhead

theorem Sound.drive (h : Sound s) : Sound s.drive := by
  unfold SessionTasks.drive
  cases htodo : s.todo with
  | nil => exact h
  | cons a rest =>
    have hplan := h.plan
    rw [htodo] at hplan
    have hpresent : a ≠ .raise → s.recv.terminal.isSome = true →
        s.recv.terminalPresent = true := by
      intro ha hsome
      refine h.present hsome ?_
      rw [htodo]
      exact fun hhead => ha (Option.some_inj.mp hhead)
    have hrest : (∀ reason, a ≠ .insert reason) → Plan s.recv.terminal.isSome rest :=
      fun ha => hplan.tail (.inr ha)
    obtain ⟨hnamed, hflagged, hraised, -, hunexpected, hclosing, hdropped, hreceived, hanswered,
      hwriter, hreader⟩ := h
    cases a with
    | insert reason =>
      simp only [perform]
      by_cases hclosed : s.recv.closing = true
      · rw [if_pos hclosed]
        have hsome := hflagged (hclosing hclosed)
        exact ⟨hnamed, hflagged, fun hsome => .inl (hpresent nofun hsome), hplan.tail (.inl hsome),
          hunexpected, hclosing, hdropped, hreceived, hanswered, hwriter, hreader⟩
      rw [if_neg hclosed]
      cases hterminal : s.recv.terminal with
      | some first =>
        rw [hterminal] at hplan hnamed hpresent
        refine ⟨hnamed, fun _ => rfl, fun _ => .inl (hpresent nofun rfl), hplan.tail (.inl rfl),
          fun _ => rfl, hclosing, hdropped, hreceived, hanswered, hwriter, hreader⟩
      | none =>
        rw [hterminal] at hplan
        have hmismatch : reason.mismatch = true := hplan.1.resolve_left Bool.false_ne_true
        refine ⟨?_, fun _ => rfl, fun _ => .inr rfl, plan_true _, fun _ => rfl, hclosing,
          hdropped, hreceived, hanswered, hwriter, hreader⟩
        intro r hr
        obtain rfl := Option.some_inj.mp hr
        exact hmismatch
    | raise =>
      have hsome : s.recv.terminal.isSome = true := hplan.1.resolve_right Bool.false_ne_true
      exact ⟨hnamed, fun _ => hsome, fun _ => .inl rfl, hrest nofun, hunexpected, fun _ => rfl,
        hdropped, hreceived, hanswered, hwriter, hreader⟩
    | update =>
      exact ⟨hnamed, hflagged, fun hsome => .inl (hpresent nofun hsome), hrest nofun, hunexpected,
        hclosing, hdropped, hreceived, hanswered, hwriter, hreader⟩
    | storeChannel channel =>
      exact ⟨hnamed, hflagged, fun hsome => .inl (hpresent nofun hsome), hrest nofun, hunexpected,
        hclosing, hdropped, hreceived, hanswered, hwriter, hreader⟩
    | close =>
      have hsome : s.recv.terminal.isSome = true := hplan.1.resolve_right Bool.false_ne_true
      exact ⟨hnamed, hflagged, fun hsome => .inl (hpresent nofun hsome), hrest nofun, hunexpected,
        fun _ => hpresent nofun hsome, fun _ => rfl, hreceived, hanswered, hwriter, hreader⟩
    | destroying =>
      have hsome : s.recv.terminal.isSome = true := hplan.1.resolve_right Bool.false_ne_true
      exact ⟨hnamed, hflagged, fun hsome => .inl (hpresent nofun hsome), hrest nofun,
        fun _ => hsome, hclosing, hdropped, hreceived, hanswered, hwriter, hreader⟩
    | exhausted =>
      exact ⟨hnamed, hflagged, fun hsome => .inl (hpresent nofun hsome), hrest nofun, hunexpected,
        hclosing, hdropped, hreceived, hanswered, hwriter, hreader⟩
    | begin =>
      exact ⟨hnamed, hflagged, fun hsome => .inl (hpresent nofun hsome), hrest nofun, nofun,
        hclosing, hdropped, hreceived, hanswered, hwriter, hreader⟩
    | finish =>
      have hpresent := hpresent nofun
      have hrest := hrest nofun
      simp only [perform]
      split
      · -- what is destroyed has been named, and the flag is up
        rename_i hlate
        have hsome := hunexpected hlate.1
        have hnone := hlate.2
        rw [Receiving.reason, if_pos (hpresent hsome), ← Option.not_isSome, hsome] at hnone
        cases hnone
      · exact ⟨hnamed, hflagged, fun hsome => .inl (hpresent hsome), hrest, hunexpected,
          hclosing, hdropped, hreceived, hanswered, hwriter, hreader⟩

/-- A step of the receiver. -/
structure Received (r r' : Receiving α) : Prop where
  terminal : r'.terminal = r.terminal
  present : r'.terminalPresent = r.terminalPresent
  closing : r'.closing = r.closing
  dropped : r'.incomingClosed = r.incomingClosed
  failed : ∀ reason, r'.pc = .idle (some (.failed reason)) → r.reason = some reason
  closed : r'.pc = .idle (some .closed) → r.incomingClosed = true ∧ r.reason = none

theorem received_popProtected (r : Receiving α) {next : RecvPc α} (hnext : ∀ res, next ≠ .idle res) :
    Received r (r.popProtected next) := by
  unfold Receiving.popProtected
  split
  · exact ⟨rfl, rfl, rfl, rfl, nofun, nofun⟩
  · exact ⟨rfl, rfl, rfl, rfl, fun _ hpc => absurd hpc (hnext _), fun hpc => absurd hpc (hnext _)⟩

theorem received_drive {r r' : Receiving α} (h : r.drive = some r') : Received r r' := by
  unfold Receiving.drive at h
  cases hpc : r.pc with
  | absent => simp [hpc] at h
  | idle last => simp [hpc] at h
  | check =>
    simp only [hpc] at h
    split at h <;> obtain rfl := Option.some_inj.mp h
    · rename_i reason hreason
      refine ⟨rfl, rfl, rfl, rfl, fun found hfound => ?_, nofun⟩
      obtain rfl := RecvResult.failed.inj (Option.some_inj.mp (RecvPc.idle.inj hfound))
      exact hreason
    · exact ⟨rfl, rfl, rfl, rfl, nofun, nofun⟩
  | popFirst =>
    simp only [hpc] at h
    obtain rfl := Option.some_inj.mp h
    exact received_popProtected r nofun
  | popSecond =>
    simp only [hpc] at h
    obtain rfl := Option.some_inj.mp h
    exact received_popProtected r nofun
  | pollProtected =>
    simp only [hpc] at h
    split at h <;> obtain rfl := Option.some_inj.mp h <;>
      exact ⟨rfl, rfl, rfl, rfl, nofun, nofun⟩
  | pollChanged =>
    simp only [hpc] at h
    split at h <;> obtain rfl := Option.some_inj.mp h <;>
      exact ⟨rfl, rfl, rfl, rfl, nofun, nofun⟩
  | pollIncoming =>
    simp only [hpc] at h
    split at h
    · obtain rfl := Option.some_inj.mp h
      exact ⟨rfl, rfl, rfl, rfl, nofun, nofun⟩
    · split at h <;> obtain rfl := Option.some_inj.mp h
      · rename_i hdropped
        -- the queue is over: the reason, or none
        cases hreason : r.reason with
        | none =>
          refine ⟨rfl, rfl, rfl, rfl, ?_, fun _ => ⟨hdropped, hreason⟩⟩
          exact fun reason hfound => by simp at hfound
        | some reason =>
          refine ⟨rfl, rfl, rfl, rfl, fun found hfound => ?_, nofun⟩
          obtain rfl := RecvResult.failed.inj (Option.some_inj.mp (RecvPc.idle.inj hfound))
          exact hreason
      · exact ⟨rfl, rfl, rfl, rfl, nofun, nofun⟩
  | parked =>
    simp only [hpc] at h
    split at h
    · obtain rfl := Option.some_inj.mp h
      exact ⟨rfl, rfl, rfl, rfl, nofun, nofun⟩
    · cases h

/-- The receiver finds a mismatch, or goes on: the queue ends behind the flag. -/
theorem Sound.receive (h : Sound s) {recv : Receiving α} (hdrive : s.recv.drive = some recv) :
    Sound { s with recv } := by
  obtain ⟨hterminal, hpresent, hclosing, hdropped, hfailed, hclosed⟩ := received_drive hdrive
  refine ⟨?_, ?_, ?_, ?_, ?_, ?_, ?_, ?_, ?_, h.writer, h.reader⟩
  · exact fun reason hreason => h.named reason (hterminal.symm.trans hreason)
  · rw [hpresent, hterminal]
    exact h.flagged
  · rw [hpresent, hterminal]
    exact h.raised
  · rw [hterminal]
    exact h.plan
  · rw [hterminal]
    exact h.unexpected
  · rw [hpresent, hclosing]
    exact h.closing
  · rw [hdropped, hclosing]
    exact h.dropped
  · exact fun reason hpc => h.reason_mismatch (hfailed reason hpc)
  · intro hpc
    obtain ⟨hgone, hnone⟩ := hclosed hpc
    have hup := h.closing (h.dropped hgone)
    have hsome := h.flagged hup
    rw [Receiving.reason, if_pos hup] at hnone
    rw [hnone] at hsome
    cases hsome

theorem Sound.read (describe : Terminal → String) (h : Sound s)
    (hstep : s.readOne describe = some s') : Sound s' := by
  unfold readOne at hstep
  split at hstep
  · cases hstep
  obtain ⟨hnamed, hflagged, hraised, hplan, hunexpected, hclosing, hdropped, hreceived, hanswered,
    hwriter, hreader⟩ := id h
  split at hstep
  · rename_i reason hpc
    obtain rfl := Option.some_inj.mp hstep
    refine ⟨hnamed, hflagged, hraised, hplan, hunexpected, hclosing, hdropped, hreceived,
      hanswered, hwriter, ?_⟩
    intro error herror
    obtain rfl := Option.some_inj.mp herror
    exact keepsEpoch_readerError describe (hreceived reason hpc)
  · rename_i hpc
    exact absurd hpc hanswered
  · obtain rfl := Option.some_inj.mp hstep
    exact ⟨hnamed, hflagged, hraised, hplan, hunexpected, hclosing, hdropped, nofun, nofun,
      hwriter, hreader⟩
  · obtain ⟨recv, hrecv, rfl⟩ := Option.map_eq_some_iff.mp hstep
    exact h.receive hrecv

theorem Sound.writeFailed (h : Sound s) (command : Bool) {error : SessionError}
    (hkeeps : command = true ∨ KeepsEpoch error) : Sound (s.writeFailed command error) := by
  obtain ⟨hnamed, hflagged, hraised, hplan, hunexpected, hclosing, hdropped, hreceived, hanswered,
    hwriter, hreader⟩ := h
  refine ⟨hnamed, hflagged, hraised, hplan, hunexpected, hclosing, hdropped, hreceived, hanswered,
    ?_, hreader⟩
  intro e he
  cases command with
  | true => cases he
  | false =>
    obtain rfl := WriterPc.failed.inj he
    exact hkeeps.resolve_left Bool.false_ne_true

/-- The writer goes on without a failure. -/
theorem Sound.goesOn (h : Sound s) {pc : WriterPc} (hpc : ∀ error, pc ≠ .failed error) :
    Sound { s with writer := pc } := by
  obtain ⟨hnamed, hflagged, hraised, hplan, hunexpected, hclosing, hdropped, hreceived, hanswered,
    hwriter, hreader⟩ := h
  exact ⟨hnamed, hflagged, hraised, hplan, hunexpected, hclosing, hdropped, hreceived, hanswered,
    fun error he => absurd he (hpc error), hreader⟩

theorem Sound.write (describe : Terminal → String) (h : Sound s) (hrunning : s.ended = none)
    (hok : Undisturbed s .writer) (hstep : s.writeOne describe = some s') : Sound s' := by
  unfold writeOne at hstep
  unfold Undisturbed at hok
  cases hwriter : s.writer with
  | idle => simp [hwriter] at hstep
  | failed error => simp [hwriter] at hstep
  | entered command =>
    simp only [hwriter] at hstep
    split at hstep
    · rename_i reason hreason
      obtain rfl := Option.some_inj.mp hstep
      exact h.writeFailed command
        (.inr (keepsEpoch_plainError describe (h.reason_mismatch hreason)))
    · obtain rfl := Option.some_inj.mp hstep
      exact h.goesOn nofun
  | opened command =>
    simp only [hwriter] at hstep hok
    split at hstep
    · rename_i hzero
      obtain rfl := Option.some_inj.mp hstep
      exact h.writeFailed command (.inl ((hok hrunning).resolve_right fun hne => hne hzero))
    · obtain rfl := Option.some_inj.mp hstep
      exact h.goesOn nofun
  | loaded command channel =>
    simp only [hwriter] at hstep
    obtain rfl := Option.some_inj.mp hstep
    exact h.goesOn nofun

/-- One step of anybody, until the session is over. -/
theorem Sound.step {describe : Terminal → String} {l : SessionLabel α} (h : Sound s)
    (hrunning : s.ended = none) (hok : Undisturbed s l) (hstep : s.step describe l = some s') :
    Sound s' := by
  cases l with
  | driver =>
    obtain rfl := Option.some_inj.mp hstep
    exact h.drive
  | driverFails reason =>
    simp only [SessionTasks.step] at hstep
    split at hstep
    · rename_i htodo
      obtain rfl := Option.some_inj.mp hstep
      -- an undisturbed driver fails only when a reason is there
      have hsome : s.recv.terminal.isSome = true := hok hrunning
      have hpresent := h.present hsome (by rw [htodo]; nofun)
      exact ⟨h.named, h.flagged, fun _ => .inl hpresent, hsome ▸ plan_true _, h.unexpected,
        h.closing, h.dropped, h.received, h.answered, h.writer, h.reader⟩
    · cases hstep
  | stash packet =>
    obtain rfl := Option.some_inj.mp hstep
    exact ⟨h.named, h.flagged, h.raised, h.plan, h.unexpected, h.closing, h.dropped, h.received,
      h.answered, h.writer, h.reader⟩
  | deliver packet =>
    simp only [SessionTasks.step] at hstep
    split at hstep
    · cases hstep
    · obtain rfl := Option.some_inj.mp hstep
      exact ⟨h.named, h.flagged, h.raised, h.plan, h.unexpected, h.closing, h.dropped, h.received,
        h.answered, h.writer, h.reader⟩
  | dropIncoming =>
    simp only [SessionTasks.step] at hstep
    split at hstep
    · rename_i hclosing
      obtain rfl := Option.some_inj.mp hstep
      exact ⟨h.named, h.flagged, h.raised, h.plan, h.unexpected, h.closing, fun _ => hclosing,
        h.received, h.answered, h.writer, h.reader⟩
    · cases hstep
  | write command =>
    simp only [SessionTasks.step] at hstep
    split at hstep
    · split at hstep
      · rename_i hclosing
        obtain rfl := Option.some_inj.mp hstep
        refine h.writeFailed command (.inl ((hok hrunning).resolve_right fun hopen => ?_))
        rw [hclosing] at hopen
        cases hopen
      · obtain rfl := Option.some_inj.mp hstep
        exact h.goesOn nofun
    · cases hstep
  | writer => exact h.write describe hrunning hok hstep
  | writeFails error =>
    simp only [SessionTasks.step] at hstep
    split at hstep
    · obtain rfl := Option.some_inj.mp hstep
      exact h.writeFailed false (.inr (hok hrunning))
    · obtain rfl := Option.some_inj.mp hstep
      exact h.writeFailed _ (.inr (hok hrunning))
    · cases hstep
  | reader => exact h.read describe hstep
  | settle =>
    simp only [SessionTasks.step] at hstep
    split at hstep
    · obtain rfl := Option.some_inj.mp hstep
      exact ⟨h.named, h.flagged, h.raised, h.plan, h.unexpected, h.closing, h.dropped, h.received,
        h.answered, h.writer, h.reader⟩
    · obtain rfl := Option.some_inj.mp hstep
      exact ⟨h.named, h.flagged, h.raised, h.plan, h.unexpected, h.closing, h.dropped, h.received,
        h.answered, h.writer, h.reader⟩
    · cases hstep

/-- What holds in every state of an undisturbed run. -/
structure Settled (s : SessionTasks α) : Prop where
  sound : s.ended = none → Sound s
  decided : Decided s

theorem ended_step {describe : Terminal → String} {l : SessionLabel α}
    (hstep : s.step describe l = some s') :
    s'.ended = s.ended ∨ ∃ error, s'.ended = some error ∧ s.ended = none ∧
      (s.writer = .failed error ∨ s.reader = some error) := by
  -- only `settle` ends the session
  have hsame : ∀ t : SessionTasks α, t = s' → t.ended = s.ended → s'.ended = s.ended ∨
      ∃ error, s'.ended = some error ∧ s.ended = none ∧
        (s.writer = .failed error ∨ s.reader = some error) := by
    rintro t rfl hended
    exact .inl hended
  cases l with
  | settle =>
    simp only [SessionTasks.step] at hstep
    split at hstep
    · rename_i error hnone hwriter
      obtain rfl := Option.some_inj.mp hstep
      exact .inr ⟨error, rfl, hnone, .inl hwriter⟩
    · rename_i error hnone hreader _
      obtain rfl := Option.some_inj.mp hstep
      exact .inr ⟨error, rfl, hnone, .inr hreader⟩
    · cases hstep
  | driver =>
    refine hsame _ (Option.some_inj.mp hstep) ?_
    unfold SessionTasks.drive
    split
    · rfl
    · rename_i a rest htodo
      cases a <;> simp only [perform] <;> split <;> rfl
  | driverFails reason =>
    simp only [SessionTasks.step] at hstep
    split at hstep
    · exact hsame _ (Option.some_inj.mp hstep) rfl
    · cases hstep
  | stash packet => exact hsame _ (Option.some_inj.mp hstep) rfl
  | deliver packet =>
    simp only [SessionTasks.step] at hstep
    split at hstep
    · cases hstep
    · exact hsame _ (Option.some_inj.mp hstep) rfl
  | dropIncoming =>
    simp only [SessionTasks.step] at hstep
    split at hstep
    · exact hsame _ (Option.some_inj.mp hstep) rfl
    · cases hstep
  | write command =>
    simp only [SessionTasks.step] at hstep
    split at hstep
    · split at hstep <;> exact hsame _ (Option.some_inj.mp hstep) rfl
    · cases hstep
  | writer =>
    simp only [SessionTasks.step, writeOne] at hstep
    split at hstep
    · cases hstep
    · cases hstep
    · split at hstep <;> exact hsame _ (Option.some_inj.mp hstep) rfl
    · split at hstep <;> exact hsame _ (Option.some_inj.mp hstep) rfl
    · exact hsame _ (Option.some_inj.mp hstep) rfl
  | writeFails error =>
    simp only [SessionTasks.step] at hstep
    split at hstep
    · exact hsame _ (Option.some_inj.mp hstep) rfl
    · exact hsame _ (Option.some_inj.mp hstep) rfl
    · cases hstep
  | reader =>
    simp only [SessionTasks.step, readOne] at hstep
    split at hstep
    · cases hstep
    · split at hstep
      · exact hsame _ (Option.some_inj.mp hstep) rfl
      · exact hsame _ (Option.some_inj.mp hstep) rfl
      · exact hsame _ (Option.some_inj.mp hstep) rfl
      · obtain ⟨recv, -, heq⟩ := Option.map_eq_some_iff.mp hstep
        exact hsame _ heq rfl

theorem Settled.step {describe : Terminal → String} {l : SessionLabel α} (h : Settled s)
    (hok : Undisturbed s l) (hstep : s.step describe l = some s') : Settled s' := by
  rcases ended_step hstep with hsame | ⟨error, herror, hrunning, hfailed⟩
  · refine ⟨fun hrunning => ?_, fun error herror => h.decided error (hsame.symm.trans herror)⟩
    rw [hsame] at hrunning
    exact (h.sound hrunning).step hrunning hok hstep
  · refine ⟨fun hnone => ?_, fun e he => ?_⟩
    · rw [herror] at hnone
      cases hnone
    · obtain rfl := Option.some_inj.mp (herror.symm.trans he)
      rcases hfailed with hwriter | hreader
      · exact (h.sound hrunning).writer _ hwriter
      · exact (h.sound hrunning).reader _ hreader

theorem Sound.upto {core : Inner} {peer : SocketAddr} {channel : BitVec 16}
    (h : Plan false (core.events.flatMap (accesses core peer) ++ [.finish])) :
    Sound (upto core peer channel : SessionTasks α) :=
  ⟨nofun, nofun, nofun, h, nofun, nofun, nofun, nofun, nofun, nofun, nofun⟩

/-- A session whose allocation has been taken down by an accepted 437, or 400 to its
ChannelBind, ends as a mismatch, and opens no epoch. -/
theorem mismatch_keeps_epoch {P : Primitives} {env : Env} {s₀ core : Inner}
    {server peer : SocketAddr} {username password : Bytes} {transport : TurnControlTransport}
    {history : List (Env × Call)} {packet : Bytes} {m : Message} {p : Pending} {code : ℕ}
    (hcreate : NativeCore.create server username password peer transport = .ok s₀)
    (hhistory : run (NativeCore.step P) s₀ history = some core) (hready : core.state = .ready)
    (htears : core.TearsDown P packet m p code)
    (hroom : core.events.length + 3 ≤ eventCapacity)
    (hquiet : ∀ e ∈ core.events, Sane (NativeCore.after P env core (.inputStun packet)) e ∧
      ¬ Alarming peer e)
    (describe : Terminal → String) (channel : BitVec 16) {labels : List (SessionLabel α)}
    (hundisturbed : Admits (step describe) Undisturbed
      (upto (NativeCore.after P env core (.inputStun packet)) peer channel) labels) :
    Always (step describe) Decided
      (upto (NativeCore.after P env core (.inputStun packet)) peer channel) labels := by
  obtain ⟨hevents, -⟩ := Inner.inputStun_tears env htears
    (Inner.base_of_run hcreate hhistory) hready hroom
  have hplan : Plan false ((NativeCore.after P env core (.inputStun packet)).events.flatMap
      (accesses (NativeCore.after P env core (.inputStun packet)) peer) ++ [.finish]) := by
    rw [show (NativeCore.after P env core (.inputStun packet)).events = _ from hevents,
      List.flatMap_append, List.append_assoc]
    refine plan_append (fun a ha => ?_) false (plan_teardown htears peer)
    obtain ⟨e, he, ha⟩ := List.mem_flatMap.mp ha
    obtain ⟨hsane, hcalm⟩ := hquiet e he
    exact calm_accesses hsane hcalm a ha
  refine Always.mono (fun s h => Settled.decided h) (always_of_admits
    (fun s l s' h hok hstep => Settled.step h hok hstep) ?_ hundisturbed)
  exact ⟨fun _ => .upto hplan, nofun⟩

/-- The handshake, its events, and a ChannelBind. -/
def boundHistory : List (Env × Call) :=
  Inner.handshake Inner.zeroDigests ++
    List.replicate 8 (Inner.moment 0 3, .pullEvent) ++ [(Inner.moment 0 3, .startChannel)]

/-- The core that waits for the answer to its ChannelBind, with an empty ring. -/
def boundCore : Inner :=
  boundHistory.foldl (fun s c => NativeCore.after Inner.zeroDigests c.1 s c.2) Inner.freshCore

theorem boundCore_run :
    run (NativeCore.step Inner.zeroDigests) Inner.freshCore boundHistory = some boundCore := rfl

def refusedAttributes : List (BitVec 16 × Bytes) :=
  signed Inner.zeroDigests (Inner.freshKey Inner.zeroDigests) 0x0119
    ((Inner.moment 0 3).transaction .channel) [(attrErrorCode, [0, 0, 4, 0])]

/-- The server answers with 400, signed. -/
def refusedBind : Bytes :=
  spelled 0x0119 ((Inner.moment 0 3).transaction .channel) refusedAttributes

def refusedMessage : Message :=
  messageOf 0x0119 ((Inner.moment 0 3).transaction .channel) refusedAttributes

theorem refusedBind_tears :
    ∃ p, boundCore.TearsDown Inner.zeroDigests refusedBind refusedMessage p 400 := by
  have hanswers : (boundCore.pending.find? (·.answeredBy refusedMessage)).any (fun p =>
      p.operation = .channel &&
        !boundCore.unauthentic Inner.zeroDigests refusedBind p refusedMessage) = true := by
    decide +kernel
  obtain ⟨p, hp, hboth⟩ := (Option.any_eq_true _ _).mp hanswers
  rw [Bool.and_eq_true, decide_eq_true_eq, Bool.not_eq_true'] at hboth
  refine ⟨p, decode_spelled (by decide) (by decide) (by decide +kernel), by decide +kernel,
    by decide +kernel, hp, hboth.2, by decide +kernel, ?_⟩
  rw [hboth.1]
  rfl

/-- The three events of the teardown. -/
def refusedCore : Inner :=
  NativeCore.after Inner.zeroDigests (Inner.moment 1 4) boundCore (.inputStun refusedBind)

/-- A packet goes out, the pump runs, and the next packet meets the reason. -/
def toldInTime : List (SessionLabel ℕ) :=
  [.write false, .writer, .writer, .writer] ++ List.replicate 9 .driver ++
    [.write false, .writer, .settle]

theorem told_in_time :
    ((run (step fun _ => "") (upto refusedCore Inner.freshCore.peer 0x4000) toldInTime).any
        (·.ended.isSome)) = true ∧
      Always (step fun _ => "") Decided (upto refusedCore Inner.freshCore.peer 0x4000)
        toldInTime := by
  obtain ⟨p, htears⟩ := refusedBind_tears
  refine ⟨by decide +kernel, mismatch_keeps_epoch Inner.create_freshCore boundCore_run
    (by decide +kernel) htears (by decide +kernel) ?_ _ _ (by decide +kernel)⟩
  intro e he
  have hempty : boundCore.events = [] := by decide +kernel
  rw [hempty] at he
  cases he

/-- The whole pump falls between the writer's `ensure_open` and its look at the channel. -/
def checkedBefore : List (SessionLabel ℕ) :=
  [.write false, .writer] ++ List.replicate 9 .driver ++ [.writer, .settle]

theorem cleared_behind_check :
    (∃ p, boundCore.TearsDown Inner.zeroDigests refusedBind refusedMessage p 400) ∧
      (run (step fun _ => "") (upto refusedCore Inner.freshCore.peer 0x4000) checkedBefore).any
        (fun s => s.ended.any fun error =>
          error.message = "TURN ChannelBind обязателен" &&
            !error.errorIsAllocationMismatch && shouldNotePathLost error) = true :=
  ⟨refusedBind_tears, by decide +kernel⟩

end SessionTasks

end Csqtt.Turn
