/-
The driver loop of an allocation.

`driver_loop_udp` and `driver_loop_stream`, one step (`drive`) from a point where somebody
else can come in between to the next one: the owner, the peer, the task that writes the
stream, or the clock.  The head of the loop is a single step.  Between its accesses others
can touch only what it has already read, or what it reads later anyway.

What the driver has done is kept in a ledger, of which the source knows nothing.
-/
import Csqtt.TransitionRun
import Csqtt.TurnDriver
import Csqtt.TurnIngress

namespace Csqtt.Turn

open ChannelData Stun TurnIngress

/-- `CLEANUP_TIMEOUT`. -/
def cleanupTimeout : ℕ := secs 35

/-- `READY_CLEANUP_TIMEOUT`. -/
def readyCleanupTimeout : ℕ := secs 12

/-- `CLEANUP_ERROR_RETRY`. -/
def cleanupErrorRetry : ℕ := millis 100

/-- `udp_batch::MAX_DATAGRAMS`. -/
def maxDatagrams : ℕ := 128

/-- What is read at once from either transport. -/
abbrev Wire := { wire : Bytes // wire.length ≤ 4096 }

inductive TurnInbound where
  | udp
  | stream
  deriving DecidableEq

/-- Why the driver has left its loop. -/
inductive Reason where
  /-- No control packet has ever been sent. -/
  | controlUnsent
  /-- `cleanup_limiter` has no permit. -/
  | noPermit
  /-- The snapshot is DEALLOCATED or DESTROYING. -/
  | over
  | deadline
  /-- The owner has aborted the task. -/
  | aborted
  deriving DecidableEq

/-- The three calls of `select!`. -/
inductive Select where
  /-- Of the UDP loop, while the allocation is open. -/
  | readable
  /-- Of the UDP loop, for the cleanup. -/
  | datagram
  | frame
  deriving DecidableEq

/-- Where the driver is. -/
inductive Pc where
  /-- At the head of the loop. -/
  | top
  /-- In `pump_native`, before `poll`. -/
  | poll
  /-- Before `pull_control`. -/
  | controls (timer : Option ℕ)
  | sending (timer : Option ℕ) (packet : Bytes)
  /-- Before `pull_event`, with the two flags of the pump. -/
  | events (timer : Option ℕ) (unexpectedDestroy channelRebindExhausted : Bool)
  /-- Asleep after an error. -/
  | retry (deadline : ℕ)
  /-- There is nothing to pump. -/
  | idle
  /-- UDP, open: so many datagrams of a burst have been taken. -/
  | burst (wait taken : ℕ)
  /-- UDP, closing: before `try_recv`. -/
  | flush (wait : ℕ)
  /-- `signalled` once `notify_waiters` has reached the futures that are waited for. -/
  | select (kind : Select) (deadline : ℕ) (signalled : Bool)
  | left (reason : Reason)
  deriving DecidableEq

/-- What the driver has done so far. -/
structure Ledger where
  /-- The packets that the transport has taken. -/
  handed : List Bytes := []
  /-- The packets that have been pulled and not been handed over. -/
  refused : List Bytes := []
  /-- When `closing` was set, a control packet had been sent and the core held an allocation. -/
  owed : Bool := false
  /-- The permit of `wake` comes from the driver itself. -/
  ownWake : Bool := false
  /-- After closing, a `select!` that has given nothing new: its own notification, the owner
  or the writer that had gone before, the end of the stream. -/
  wasted : ℕ := 0
  iterations : ℕ := 0

structure DriverLoop where
  inbound : TurnInbound
  server : SocketAddr
  peer : SocketAddr
  core : Inner
  shared : DriverShared := {}
  /-- What the transport has for the driver; the end of a stream stays where it is. -/
  arrived : List (Except String Wire) := []
  /-- The owner has dropped its receiver. -/
  ownerClosed : Bool := false
  /-- The failure that `write_failure.changed` has not returned yet. -/
  writeFailure : Option String := none
  /-- The writer has dropped its end of `write_failure`. -/
  writerGone : Bool := false
  /-- `wake::epoch`. -/
  epoch : ℕ
  /-- `wake::last_gap`. -/
  lastGap : ℕ := 0
  wakeEpoch : ℕ
  cleanupDeadline : Option ℕ := none
  cleanupPermit : Bool := false
  shutdownRequested : Bool := false
  nativeDeadline : ℕ
  pumpNeeded : Bool := true
  pc : Pc := .top
  ledger : Ledger := {}

/-- What a step of the driver draws from the outside. -/
structure Draw where
  env : Env
  /-- The clock when it is read once more. -/
  later : ℕ
  /-- `cleanup_limiter` has a permit. -/
  permit : Bool
  /-- The answer of the transport. -/
  sent : Except String Unit
  /-- The pool has a buffer. -/
  pooled : Bool
  /-- The packets of a batch behind the one that finds the owner gone. -/
  rest : ℕ
  /-- The answer of `readable`. -/
  readable : Except String Unit

/-- The driver that `connect` spawns. -/
def DriverLoop.spawn (inbound : TurnInbound) (core : Inner) (epoch now : ℕ) : DriverLoop :=
  { inbound, server := core.server, peer := core.peer, core, epoch, wakeEpoch := epoch
    nativeDeadline := now }

/-- The core has an allocation at the server: it is READY, or the exhausted rebind of the
channel has ended it. -/
def Inner.holding (s : Inner) : Bool :=
  !s.destroyed && s.allocationExpiresAt.isSome &&
    (s.state = .ready ||
      s.state = .destroying && maxChannelMaintenanceFailures ≤ s.channelFailures)

/-- The packet asks the server to give the allocation up. -/
def isDeallocate (packet : Bytes) : Bool :=
  match Message.decode packet with
  | .ok m =>
    m.class = .request && m.method = Operation.refresh.method &&
      attributeU32 m attrLifetime = some 0
  | .error _ => false

/-- The first half of `pumpControl`: a packet of the core, and its destination is checked. -/
def pullPacket (server : SocketAddr) (core : Inner) : Except PumpError (Option Bytes) × Inner :=
  match NativeCore.pullControl core with
  | (.error e, core) => (.error (.core e), core)
  | (.ok none, core) => (.ok none, core)
  | (.ok (some (packet, destination)), core) =>
    if destination ≠ server then (.error (.unexpectedDestination destination), core)
    else (.ok (some packet), core)

theorem pumpControl_eq (send : Bytes → Except String Unit) (server : SocketAddr) (core : Inner) :
    pumpControl send server core =
      match pullPacket server core with
      | (.error e, core) => (.error e, core)
      | (.ok none, core) => (.ok none, core)
      | (.ok (some packet), core) =>
        (match send packet with
          | .error e => .error (.send e)
          | .ok () => .ok (some ()), core) := by
  rw [pumpControl, pullPacket]
  rcases NativeCore.pullControl core with ⟨e | _ | ⟨packet, destination⟩, t⟩
  · rfl
  · rfl
  · by_cases hdestination : destination = server
    · simp only [hdestination, ne_eq, not_true_eq_false, if_false]
      cases send packet with
      | error e => rfl
      | ok u => rfl
    · simp only [hdestination, ne_eq, not_false_eq_true, if_true]

namespace DriverLoop

variable (P : Primitives) (d : Draw)

def call (env : Env) (l : DriverLoop) (call : Call) : DriverLoop :=
  { l with core := NativeCore.after P env l.core call }

/-- `request_cleanup`, by the driver itself or by the owner. -/
def requestCleanup (l : DriverLoop) (own : Bool) : DriverLoop :=
  { l with
    shared := l.shared.requestCleanup
    ledger := { l.ledger with
      owed := l.ledger.owed || (!l.shared.closing && l.shared.controlSent && l.core.holding)
      ownWake := own && (!l.shared.wake || l.ledger.ownWake) } }

def fail (l : DriverLoop) (reason : Terminal) : DriverLoop :=
  { l with shared := l.shared.fail reason }

/-- Out of the loop, and `force_destroy`. -/
def leave (l : DriverLoop) (reason : Reason) : DriverLoop :=
  { l with core := NativeCore.forceDestroy l.core 0, pc := .left reason }

/-! ### The head of the loop -/

/-- `observe_wake`. -/
def observeWake (l : DriverLoop) : DriverLoop :=
  if l.epoch = l.wakeEpoch then l
  else
    { l.call P d.env (.resyncAfterSuspend l.lastGap) with
      wakeEpoch := l.epoch, pumpNeeded := true }

/-- `start_driver_cleanup`. -/
def startCleanup (l : DriverLoop) (state : TurnState) : DriverLoop :=
  let timeout := if TurnState.ready.number ≤ state.number then readyCleanupTimeout
    else cleanupTimeout
  let proposed := d.env.now + timeout
  let l := { l with cleanupDeadline := some (min (l.cleanupDeadline.getD proposed) proposed) }
  if l.shutdownRequested then l
  else
    { l.call P d.env .gracefulShutdown with shutdownRequested := true, pumpNeeded := true }

/-- Behind the cleanup: pump if there is a reason to. -/
def proceed (l : DriverLoop) : DriverLoop :=
  { l with pc := if l.pumpNeeded ∨ l.nativeDeadline ≤ d.later then .poll else .idle }

/-- The cleanup, with a permit; the state is read before the shutdown is started. -/
def cleanup (l : DriverLoop) : DriverLoop :=
  let state := l.shared.snapshot.state
  let l := { l with cleanupPermit := true }.startCleanup P d state
  if TurnState.deallocated.number ≤ state.number then l.leave .over
  else if l.cleanupDeadline.any (· ≤ d.later) then l.leave .deadline
  else l.proceed d

def iterate (l : DriverLoop) : DriverLoop :=
  let l := { l with ledger := { l.ledger with iterations := l.ledger.iterations + 1 } }
  let l := l.observeWake P d
  if !l.shared.closing then l.proceed d
  else if !l.shared.controlSent then l.leave .controlUnsent
  else if !l.cleanupPermit && !d.permit then l.leave .noPermit
  else l.cleanup P d

/-! ### The pump -/

/-- `pump_native` has failed. -/
def failed (l : DriverLoop) (error : PumpError) : DriverLoop :=
  let l := (l.fail (.pump error)).requestCleanup true
  if !l.shared.controlSent then l.leave .controlUnsent
  else
    match l.cleanupDeadline with
    | none => { l with pumpNeeded := true, pc := .top }
    | some deadline =>
      if deadline ≤ d.later then l.leave .deadline
      else { l with pumpNeeded := true, pc := .retry (min (d.later + cleanupErrorRetry) deadline) }

def pumpPoll (l : DriverLoop) : DriverLoop :=
  match (NativeCore.poll P d.env l.core).1 with
  | .error e => (l.call P d.env .poll).failed d (.core e)
  | .ok timer => { l.call P d.env .poll with pc := .controls timer }

def refuse (l : DriverLoop) (packets : List Bytes) : DriverLoop :=
  { l with ledger := { l.ledger with refused := l.ledger.refused ++ packets } }

def pumpPull (l : DriverLoop) (timer : Option ℕ) : DriverLoop :=
  match (pullPacket l.server l.core).1 with
  | .error e =>
    ((l.refuse ((l.core.controls.take 1).map Control.packet)).call P d.env .pullControl).failed d e
  | .ok none => { l.call P d.env .pullControl with pc := .events timer false false }
  | .ok (some packet) => { l.call P d.env .pullControl with pc := .sending timer packet }

def pumpSend (l : DriverLoop) (timer : Option ℕ) (packet : Bytes) : DriverLoop :=
  match d.sent with
  | .error e => (l.refuse [packet]).failed d (.send e)
  | .ok () =>
    { l with
      shared := { l.shared with controlSent := true }
      pc := .controls timer
      ledger := { l.ledger with handed := l.ledger.handed ++ [packet] } }

/-- One event; without one the pump is over. -/
def pumpEvent (l : DriverLoop) (timer : Option ℕ) (unexpectedDestroy channelRebindExhausted : Bool) :
    DriverLoop :=
  let p : Pump := { shared := l.shared, unexpectedDestroy, channelRebindExhausted }
  match l.core.events with
  | [] =>
    { l.call P d.env .pullEvent with
      shared := p.finish
      nativeDeadline := d.later + timer.getD (secs 86400)
      pumpNeeded := false
      pc := .top }
  | e :: _ =>
    match p.event l.core l.peer e with
    | .error error => (l.call P d.env .pullEvent).failed d error
    | .ok p =>
      { l.call P d.env .pullEvent with
        shared := p.shared
        pc := .events timer p.unexpectedDestroy p.channelRebindExhausted }

/-! ### What arrives -/

/-- `process_packet`, or `process_deficit_packet` for a packet without a buffer.  Where the
payload goes is of no consequence here. -/
def process (l : DriverLoop) (wire : Bytes) (pooled : Bool) : PacketAction × DriverLoop :=
  match channelDataHeader wire with
  | some (channel, _) =>
    (if pooled ∧ channel = l.shared.channel ∧ l.ownerClosed then .ownerClosed else .wait, l)
  | none =>
    if isStun wire then (.pump, l.call P d.env (.inputStun wire)) else (.wait, l)

/-- How long the driver may wait. -/
def waitTime (l : DriverLoop) : ℕ :=
  let wait := l.cleanupDeadline.elim l.nativeDeadline (min · l.nativeDeadline) - d.later
  if wait = 0 then millis 1 else wait

def park (l : DriverLoop) : DriverLoop :=
  { l with
    pc :=
      match l.inbound, l.shared.closing with
      | .stream, _ => .select .frame (d.later + l.waitTime d) false
      | .udp, true => .flush (l.waitTime d)
      | .udp, false => .burst (l.waitTime d) 0 }

/-- The cleanup takes what is there; an error is taken, and ends it. -/
def flushOne (l : DriverLoop) (wait : ℕ) : DriverLoop :=
  match l.arrived with
  | [] => { l with pc := .select .datagram (d.later + wait) false }
  | .error _ :: arrived => { l with arrived, pc := .select .datagram (d.later + wait) false }
  | .ok wire :: arrived =>
    let (action, l) := { l with arrived }.process P d wire false
    { l with pumpNeeded := l.pumpNeeded || action = .pump }

/-- A burst without a reason to pump is followed by a wait if it has found the socket empty. -/
def burstOne (l : DriverLoop) (wait taken : ℕ) : DriverLoop :=
  if maxDatagrams ≤ taken then { l with pc := .top }
  else
    match l.arrived with
    | [] =>
      { l with pc := if l.pumpNeeded then .top else .select .readable (d.later + wait) false }
    | .error e :: arrived =>
      { ({ l with arrived }.fail (.receive e)).requestCleanup true with
        pumpNeeded := true, pc := .top }
    | .ok wire :: arrived =>
      let (action, l) := { l with arrived }.process P d wire d.pooled
      match action with
      | .wait => { l with pc := .burst wait (taken + 1) }
      | .pump => { l with pumpNeeded := true, pc := .burst wait (taken + 1) }
      | .ownerClosed =>
        -- the rest of the batch is dropped
        { l.requestCleanup true with
          arrived := arrived.drop (min d.rest (arrived.takeWhile Except.isOk).length)
          pc := .top }

/-! ### Waiting -/

def waste (l : DriverLoop) (waste : Bool) : DriverLoop :=
  { l with
    ledger := { l.ledger with
      wasted := l.ledger.wasted + if l.shared.closing && waste then 1 else 0 } }

/-- The permit of `wake` is taken. -/
def takeWake (l : DriverLoop) : DriverLoop :=
  { l.waste l.ledger.ownWake with
    shared := { l.shared with wake := false }
    ledger := { (l.waste l.ledger.ownWake).ledger with ownWake := false }
    pumpNeeded := true
    pc := .top }

def takeReadable (l : DriverLoop) : Option DriverLoop :=
  if l.ownerClosed then some { (l.waste true).requestCleanup true with pc := .top }
  else
    match l.arrived with
    | [] => none
    | _ :: _ =>
      match d.readable with
      | .ok () => some { l with pc := .top }
      | .error e =>
        some { (l.fail (.receive e)).requestCleanup true with pumpNeeded := true, pc := .top }

def takeDatagram (l : DriverLoop) : Option DriverLoop :=
  match l.arrived with
  | [] => none
  | .ok wire :: arrived =>
    let (action, l) := { l with arrived }.process P d wire false
    some { l with pumpNeeded := action = .pump, pc := .top }
  | .error e :: arrived =>
    some { { l with arrived }.fail (.receive e) with
      pumpNeeded := true, pc := .retry (d.later + cleanupErrorRetry) }

/-- `WriteFailure(Ok(()))`. -/
def takeWriteFailure (l : DriverLoop) (reason : String) : DriverLoop :=
  let l := { l with writeFailure := none, pc := .top }
  if l.shared.closing then l
  else { (l.fail (.transmit reason)).requestCleanup true with pumpNeeded := true }

def takeFrame (l : DriverLoop) : Option DriverLoop :=
  if l.ownerClosed then some { (l.waste true).requestCleanup true with pc := .top }
  else
    match l.writeFailure with
    | some reason => some (l.takeWriteFailure reason)
    | none =>
      if l.writerGone then some { l.waste true with pc := .top }
      else
        match l.arrived with
        | [] => none
        | .error e :: _ =>
          some { ((l.waste true).fail (.receive e)).requestCleanup true with
            pumpNeeded := true, pc := .top }
        | .ok wire :: arrived =>
          let (action, l) := { l with arrived }.process P d wire d.pooled
          match action with
          | .wait => some { l with pc := .top }
          | .pump => some { l with pumpNeeded := true, pc := .top }
          | .ownerClosed => some { l.requestCleanup true with pc := .top }

/-- The first future that is ready; none while all have to wait. -/
def wait (l : DriverLoop) (kind : Select) (deadline : ℕ) (signalled : Bool) :
    Option DriverLoop :=
  if l.shared.wake then some l.takeWake
  else if signalled ∨ deadline ≤ d.env.now then some { l with pumpNeeded := true, pc := .top }
  else
    match kind with
    | .readable => l.takeReadable d
    | .datagram => l.takeDatagram P d
    | .frame => l.takeFrame P d

/-- The next step of the driver; none while it has to wait. -/
def drive (l : DriverLoop) : Option DriverLoop :=
  match l.pc with
  | .top => some (l.iterate P d)
  | .poll => some (l.pumpPoll P d)
  | .controls timer => some (l.pumpPull P d timer)
  | .sending timer packet => some (l.pumpSend d timer packet)
  | .events timer unexpectedDestroy channelRebindExhausted =>
    some (l.pumpEvent P d timer unexpectedDestroy channelRebindExhausted)
  | .retry deadline => if deadline ≤ d.env.now then some { l with pc := .top } else none
  | .idle => some (l.park d)
  | .burst wait taken => some (l.burstOne P d wait taken)
  | .flush wait => some (l.flushOne P d wait)
  | .select kind deadline signalled => l.wait P d kind deadline signalled
  | .left _ => none

end DriverLoop

/-! ### Everybody's steps -/

/-- The calls that the owner makes. -/
def Call.byOwner : Call → Bool
  | .startAllocation | .startChannel | .startPermission | .gracefulShutdown | .forceDestroy _ => true
  | _ => false

inductive LoopEvent where
  | drive (draw : Draw)
  /-- `request_cleanup` of the owner. -/
  | requestCleanup
  /-- `wake.notify_one` of the owner. -/
  | notify
  /-- The owner calls the core. -/
  | call (env : Env) (call : Call)
  /-- The owner calls `fail`. -/
  | fail (reason : String)
  /-- The owner aborts the driver. -/
  | abort
  | dropReceiver
  | arrive (item : Except String Wire)
  /-- `wake::signal`. -/
  | signal (gap : ℕ)
  /-- The writer reports a failure. -/
  | writeFailed (reason : String)
  /-- The writer returns. -/
  | writerEnds

/-- `notify_waiters`. -/
def Pc.signal : Pc → Pc
  | .select kind deadline _ => .select kind deadline true
  | pc => pc

namespace DriverLoop

/-- The owner aborts a driver that has not left yet. -/
def abort (l : DriverLoop) : Option DriverLoop :=
  match l.pc with
  | .left _ => none
  | _ => some (l.leave .aborted)

/-- The owner's `fail`; its `notify_waiters` reaches the driver only while that is waiting. -/
def ownerFail (l : DriverLoop) (reason : String) : DriverLoop :=
  { l.fail (.owner reason) with
    pc := if l.shared.closing ∨ l.shared.snapshot.terminal.isSome then l.pc else l.pc.signal }

def step (P : Primitives) (l : DriverLoop) : LoopEvent → Option DriverLoop
  | .drive draw => l.drive P draw
  | .requestCleanup => some (l.requestCleanup false)
  | .notify => some { l with
      shared := { l.shared with wake := true }, ledger := { l.ledger with ownWake := false } }
  | .call env call => if call.byOwner then some (l.call P env call) else none
  | .fail reason => some (l.ownerFail reason)
  | .abort => l.abort
  | .dropReceiver => some { l with ownerClosed := true }
  | .arrive item => some { l with arrived := l.arrived ++ [item] }
  | .signal gap => some { l with epoch := l.epoch + 1, lastGap := gap, pc := l.pc.signal }
  | .writeFailed reason => some { l with writeFailure := some reason }
  | .writerEnds => some { l with writerGone := true }

end DriverLoop

end Csqtt.Turn
