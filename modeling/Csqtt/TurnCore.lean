/-
The calls of the TURN core.

Each call holds the lock of the core from its first access to its last, so here
a call is a function of the state before it.  `Call` lists the calls and
`NativeCore.step` performs one; it is never disabled.
-/
import Csqtt.TransitionRun
import Csqtt.TurnInner

namespace Csqtt.Turn

open Stun

/-- Has this deadline come? -/
def due (now : ℕ) (deadline : Option ℕ) : Bool := deadline.any (· ≤ now)

/-- The response answers this transaction. -/
def Pending.answeredBy (p : Pending) (m : Message) : Bool :=
  p.transaction = m.transaction && p.operation.method = m.method

namespace Inner

variable (P : Primitives) (env : Env)

/-! ### The parts of `poll` -/

def pollRefresh (s : Inner) : Outcome Unit :=
  if due env.now s.allocationRefresh ∧ ¬ s.hasOperation .refresh then
    { s with allocationRefresh := none }.startOperation P env .refresh true 0
  else (.ok (), s)

def pollMaintenance (s : Inner) (maintenanceDue : Bool) : Inner :=
  if maintenanceDue then
    { s with maintenanceRefresh := some (env.now + s.profile.maintenanceRefresh) }
  else s

def pollPermission (s : Inner) (permissionDue : Bool) : Outcome Unit :=
  if permissionDue ∧ ¬ s.hasOperation .permission then
    { s with permissionRetry := none }.startOperation P env .permission true 0
  else (.ok (), s)

def pollChannel (s : Inner) (channelDue : Bool) : Outcome Unit :=
  if channelDue ∧ ¬ s.hasOperation .channel then
    { s with channelRetry := none }.startOperation P env .channel true 0
  else (.ok (), s)

def pollKeepalive (s : Inner) : Inner :=
  if due env.now s.keepalive then
    { s with keepalive := some (env.now + s.profile.keepaliveInterval) }.queueKeepalive
  else s

/-- What `poll` does for a READY core; what is due is decided before anything is
started. -/
def pollReady (s : Inner) : Outcome Unit :=
  let maintenanceDue := due env.now s.maintenanceRefresh
  let permissionDue := maintenanceDue || due env.now s.permissionRetry
  let channelDue := maintenanceDue || due env.now s.channelRetry
  (s.pollRefresh P env).andThen fun _ s =>
    ((s.pollMaintenance env maintenanceDue).pollPermission P env permissionDue).andThen fun _ s =>
      (s.pollChannel P env channelDue).andThen fun _ s => (.ok (), s.pollKeepalive env)

def active (s : Inner) : Bool := !s.shuttingDown && s.state = .ready

def pollExpiry (s : Inner) : Inner :=
  if s.active ∧ due env.now s.allocationExpiresAt then
    s.destroyAllocation .refresh resultTimeout 0
  else s

def pollActive (s : Inner) : Outcome Unit :=
  if s.active then s.pollReady P env else (.ok (), s)

/-! ### The parts of `input_stun` -/

def reportError (s : Inner) (m : Message) (status : ℤ) (stunCode : ℕ) (state : TurnState) :
    Inner :=
  s.pushEvent { kind := .stunResponseError, method := m.method, status, stunCode, state }

/-- The realm and the nonce of a challenge; a stale nonce may leave the realm out. -/
def challenge (s : Inner) (m : Message) (code : ℕ) : Option (Bytes × Bytes) :=
  let realm := ((m.findAttribute attrRealm).map Attribute.value).or
    (if code = 438 then s.realm else none)
  let nonce := (m.findAttribute attrNonce).map Attribute.value
  match realm, nonce with
  | some realm, some nonce => some (realm, nonce)
  | _, _ => none

/-- The request is made again with the credentials of the challenge; none when it
is not to be made again. -/
def retried (s : Inner) (p : Pending) (m : Message) (code : ℕ) : Option (Outcome Unit) :=
  if (code = 401 ∨ code = 438) ∧ p.nonceRetries < s.profile.maxNonceRetries then
    (s.challenge m code).map fun (realm, nonce) =>
      (s.setAuth P realm nonce).startOperation P env p.operation true (p.nonceRetries + 1)
  else none

/-- An error response to a transaction that has just been removed. -/
def inputError (s : Inner) (p : Pending) (m : Message) : Inner :=
  let code := (errorCode m).getD 0
  let refused (t : Inner) : Inner :=
    (t.reportError m 0 code s.state).completeFailure p.operation resultProtocol code env.now
  if code = 0 then
    (s.reportError m resultProtocol 0 s.state).completeFailure p.operation resultProtocol 0 env.now
  else if requiresAllocationRecreate p.operation code then
    (s.reportError m 0 code s.state).destroyAllocation p.operation resultProtocol code
  else
    match s.retried P env p m code with
    | none => refused s
    | some (.ok _, s) => s
    | some (.error _, s) => refused s

/-- A success response to a transaction that has just been removed. -/
def inputSuccess (s : Inner) (p : Pending) (m : Message) : ℤ × Inner :=
  match s.completeSuccess P env p.operation m with
  | (.ok _, s) => (0, s)
  | (.error _, s) => (resultProtocol, s.completeFailure p.operation resultProtocol 0 env.now)

/-- A response that claims to be signed and is not. -/
def unauthentic (s : Inner) (packet : Bytes) (p : Pending) (m : Message) : Bool :=
  p.authenticated && responseRequiresIntegrity m && !verifyIntegrity P packet m s.key &&
    !isFingerprintedAllocationMismatch P m

/-- The transaction that `m` answers is removed, with its packet still queued. -/
def withdraw (s : Inner) (m : Message) : Inner :=
  { s with pending := s.pending.eraseP (·.answeredBy m) }.removeQueuedTransaction m.transaction

/-- A response that is believed, once its transaction has been removed. -/
def inputAccepted (s : Inner) (p : Pending) (m : Message) : ℤ × Inner :=
  if m.class = .success ∧ ¬ p.authenticated then
    (resultAuthentication, s.completeFailure p.operation resultAuthentication 0 env.now)
  else if m.class = .error then (0, s.inputError P env p m)
  else s.inputSuccess P env p m

/-- The response `m` to the pending transaction `p`. -/
def inputResponse (s : Inner) (packet : Bytes) (p : Pending) (m : Message) : ℤ × Inner :=
  if s.unauthentic P packet p m then
    (resultAuthentication,
      match m.class, errorCode m with
      | .error, some code => s.reportError m resultAuthentication code s.state
      | _, _ => s)
  else (s.withdraw m).inputAccepted P env p m

end Inner

namespace NativeCore

variable (P : Primitives) (env : Env)

/-- `create_with_transport`. -/
def create (server : SocketAddr) (username password : Bytes) (peer : SocketAddr)
    (transport : TurnControlTransport) : Except String Inner :=
  if server.port = 0 ∨ peer.port = 0 then
    .error s!"TURN core create: {nativeStatusText resultInvalidArgument}"
  else if username = [] ∨ 512 < username.length ∨ password = [] ∨ 512 < password.length then
    .error s!"TURN core create: {nativeStatusText resultInvalidArgument}"
  else .ok { server, peer, username, password, transport, profile := .pjnathCompat }

def requireOpen (s : Inner) (operation : String) : Except String Unit :=
  if s.destroyed ∨ s.shuttingDown then .error s!"{operation}: {nativeStatusText resultClosed}"
  else .ok ()

def requireReady (s : Inner) (operation : String) : Except String Unit :=
  (requireOpen s operation).bind fun _ =>
    if s.state ≠ .ready then .error s!"{operation}: {nativeStatusText resultInvalidArgument}"
    else .ok ()

def startAllocation (s : Inner) : Outcome Unit :=
  Outcome.andThen (requireOpen s "TURN Allocate start", s) fun _ s =>
    if s.state ≠ .null then
      (.error s!"TURN Allocate start: {nativeStatusText resultInvalidArgument}", s)
    else (s.setState .allocating).startOperation P env .allocate false 0

def startChannel (s : Inner) : Outcome Unit :=
  Outcome.andThen (requireReady s "TURN ChannelBind start", s) fun _ s =>
    s.startOperation P env .channel true 0

def startPermission (s : Inner) : Outcome Unit :=
  Outcome.andThen (requireReady s "TURN CreatePermission start", s) fun _ s =>
    s.startOperation P env .permission true 0

def inputStun (s : Inner) (packet : Bytes) : ℤ × Inner :=
  match Message.decode packet with
  | .error _ => (resultInvalidArgument, s)
  | .ok m =>
    if m.class ≠ .success ∧ m.class ≠ .error then (resultNotControl, s)
    else if m.fingerprintValid P = some false then (resultInvalidArgument, s)
    else
      match s.pending.find? (·.answeredBy m) with
      | none => (resultNotControl, s)
      | some p => s.inputResponse P env packet p m

def poll (s : Inner) : Outcome (Option ℕ) :=
  if s.destroyed then (.ok none, s)
  else
    (((s.expireTransactions env.now).pollExpiry env).pollActive P env).andThen fun _ s =>
      (.ok (s.nextDeadline.map fun deadline => max (deadline - env.now) (millis 1)), s)

def resyncAfterSuspend (s : Inner) (gap : ℕ) : Bool × Inner :=
  if s.destroyed ∨ s.shuttingDown ∨ s.state ≠ .ready then (false, s)
  else
    let probe (s : Inner) : Bool × Inner :=
      (false, { s with
        allocationRefresh := some env.now
        maintenanceRefresh := some env.now
        keepalive := some env.now })
    match s.allocationExpiresAt with
    | none => probe s
    | some expires =>
      if gap ≤ expires ∧ env.now < expires - gap then
        probe { s with allocationExpiresAt := some (expires - gap) }
      else (true, s.destroyAllocation .refresh resultTimeout 0)

/-- The caller's buffer has 1024 bytes. -/
def pullControl (s : Inner) : Outcome (Option (Bytes × SocketAddr)) :=
  match s.controls with
  | [] => (.ok none, s)
  | control :: controls =>
    if 1024 < control.packet.length then
      (.error s!"TURN control dequeue: {nativeStatusText resultBufferTooSmall}",
        { s with controls })
    else (.ok (some (control.packet, control.destination)), { s with controls })

def pullEvent (s : Inner) : Option NativeEvent × Inner :=
  (s.events.head?, { s with events := s.events.tail })

def gracefulShutdown (s : Inner) : Outcome Unit :=
  if s.destroyed ∨ s.shuttingDown then (.ok (), s)
  else
    let s := { s with
      shuttingDown := true
      channel := none
      maintenanceRefresh := none
      permissionRetry := none
      channelRetry := none
      keepalive := none
      controls := [] }
    if s.state = .ready ∨ (s.state = .destroying ∧ s.allocationExpiresAt.isSome) then
      ({ s with pending := [] }.setState .deallocating).startOperation P env .deallocate true 0
    else if s.state ≠ .allocating then (.ok (), { s with pending := [] })
    else (.ok (), s)

def forceDestroy (s : Inner) (status : ℤ) : Inner :=
  if s.destroyed then s
  else
    ({ s with destroyed := true, controls := [], pending := [] }.setState .destroying).pushEvent
      { kind := .forcedDestroy, status, state := .destroying }

end NativeCore

/-- The calls that change a core. -/
inductive Call where
  | startAllocation
  | startChannel
  | startPermission
  | inputStun (packet : Bytes)
  | poll
  | resyncAfterSuspend (gap : ℕ)
  | pullControl
  | pullEvent
  | gracefulShutdown
  | forceDestroy (status : ℤ)

namespace NativeCore

/-- The state after a call. -/
def after (P : Primitives) (env : Env) (s : Inner) : Call → Inner
  | .startAllocation => (startAllocation P env s).2
  | .startChannel => (startChannel P env s).2
  | .startPermission => (startPermission P env s).2
  | .inputStun packet => (inputStun P env s packet).2
  | .poll => (poll P env s).2
  | .resyncAfterSuspend gap => (resyncAfterSuspend env s gap).2
  | .pullControl => (pullControl s).2
  | .pullEvent => (pullEvent s).2
  | .gracefulShutdown => (gracefulShutdown P env s).2
  | .forceDestroy status => forceDestroy s status

def step (P : Primitives) (s : Inner) (label : Env × Call) : Option Inner :=
  some (after P label.1 s label.2)

end NativeCore

end Csqtt.Turn
