/-
The TURN core: its state, and the steps its calls are made of.

Instants and durations are in nanoseconds.  A function that can fail after it
has changed the state returns the error together with that state (`Outcome`).
The two queues, `controls` and `events`, are bounded and never looked at by the
core itself.
-/
import Csqtt.StunBuilder

namespace Csqtt.Turn

open Stun

/-! ### Constants -/

def millis (n : ℕ) : ℕ := n * 1000000

def secs (n : ℕ) : ℕ := n * 1000000000

def resultEmpty : ℤ := -1
def resultBufferTooSmall : ℤ := -2
def resultInvalidArgument : ℤ := -3
def resultClosed : ℤ := -4
def resultNotControl : ℤ := -5
def resultTimeout : ℤ := -6
def resultAuthentication : ℤ := -7
def resultProtocol : ℤ := -8

def nativeStatusText (status : ℤ) : String :=
  if status = 0 then s!"success ({status})"
  else if status = resultEmpty then s!"empty ({status})"
  else if status = resultBufferTooSmall then s!"buffer too small ({status})"
  else if status = resultInvalidArgument then s!"invalid argument ({status})"
  else if status = resultClosed then s!"closed ({status})"
  else if status = resultNotControl then s!"not a TURN control response ({status})"
  else if status = resultTimeout then s!"request timeout ({status})"
  else if status = resultAuthentication then s!"response authentication failed ({status})"
  else if status = resultProtocol then s!"TURN protocol error ({status})"
  else s!"TURN status {status}"

def attrUsername : BitVec 16 := 0x0006
def attrErrorCode : BitVec 16 := 0x0009
def attrChannelNumber : BitVec 16 := 0x000c
def attrLifetime : BitVec 16 := 0x000d
def attrXorPeerAddress : BitVec 16 := 0x0012
def attrRealm : BitVec 16 := 0x0014
def attrNonce : BitVec 16 := 0x0015
def attrXorRelayedAddress : BitVec 16 := 0x0016
def attrRequestedAddressFamily : BitVec 16 := 0x0017
def attrRequestedTransport : BitVec 16 := 0x0019

def controlCapacity : ℕ := 16
def eventCapacity : ℕ := 64
def initialRto : ℕ := millis 200
def maxRto : ℕ := millis 1600
def maxTransmissions : ℕ := 7
def streamTransactionTimeout : ℕ := secs 12
def requestedAllocationLifetime : BitVec 32 := 600
def maintenanceRetryBase : ℕ := secs 1
def maintenanceRetryMax : ℕ := secs 30
def maxChannelMaintenanceFailures : ℕ := 4
def channelNumber : BitVec 16 := 0x4000

/-! ### Data -/

inductive IpAddr where
  | v4 (bits : BitVec 32)
  | v6 (octets : Octets 16)
  deriving DecidableEq

structure SocketAddr where
  ip : IpAddr
  port : BitVec 16
  deriving DecidableEq

def SocketAddr.isIpv4 (a : SocketAddr) : Bool :=
  match a.ip with
  | .v4 _ => true
  | .v6 _ => false

inductive TurnControlTransport where
  | datagram
  | stream
  deriving DecidableEq

structure CsqttTurnProfile where
  allocationRefresh : ℕ
  maintenanceRefresh : ℕ
  keepaliveInterval : ℕ
  maxNonceRetries : ℕ

/-- `PJNATH_COMPAT`, the one profile outside the tests. -/
def CsqttTurnProfile.pjnathCompat : CsqttTurnProfile :=
  { allocationRefresh := secs 300
    maintenanceRefresh := secs 175
    keepaliveInterval := secs 10
    maxNonceRetries := 3 }

/-- The values of `Inner::state`. -/
inductive TurnState where
  | null
  | allocating
  | ready
  | deallocating
  | deallocated
  | destroying
  deriving DecidableEq

inductive EventKind where
  | state
  | requestComplete
  | channelBound
  | relayAddress
  | controlOverflow
  | forcedDestroy
  | eventOverflow
  | stunResponseError
  | channelRebindExhausted
  deriving DecidableEq

/-- `none` stands for the address of family zero. -/
structure NativeEvent where
  kind : EventKind
  method : BitVec 16 := 0
  status : ℤ := 0
  stunCode : ℕ := 0
  state : TurnState := .null
  previousState : TurnState := .null
  dropped : ℕ := 0
  channel : BitVec 16 := 0
  address : Option SocketAddr := none
  deriving DecidableEq

inductive Operation where
  | allocate
  | refresh
  | deallocate
  | permission
  | channel
  deriving DecidableEq

/-- Every method code fits the sixteen bits of the message type. -/
def Operation.method : Operation → BitVec 16
  | .allocate => 3
  | .refresh | .deallocate => 4
  | .permission => 8
  | .channel => 9

structure Pending where
  operation : Operation
  transaction : Octets 12
  packet : Bytes
  nextAttempt : ℕ
  rto : ℕ
  transmissions : ℕ
  nonceRetries : ℕ
  authenticated : Bool

structure Control where
  packet : Bytes
  destination : SocketAddr

structure Inner where
  server : SocketAddr
  peer : SocketAddr
  username : Bytes
  password : Bytes
  realm : Option Bytes := none
  nonce : Option Bytes := none
  key : Option (Octets 16) := none
  state : TurnState := .null
  relay : Option SocketAddr := none
  channel : Option (BitVec 16) := none
  controls : List Control := []
  events : List NativeEvent := []
  pending : List Pending := []
  allocationRefresh : Option ℕ := none
  allocationExpiresAt : Option ℕ := none
  maintenanceRefresh : Option ℕ := none
  permissionRetry : Option ℕ := none
  channelRetry : Option ℕ := none
  refreshFailures : ℕ := 0
  permissionFailures : ℕ := 0
  channelFailures : ℕ := 0
  keepalive : Option ℕ := none
  shuttingDown : Bool := false
  destroyed : Bool := false
  profile : CsqttTurnProfile
  transport : TurnControlTransport

/-- What a call reads from outside: the clock, and for each operation it may
start a fresh transaction and how much later the clock is read then. -/
structure Env where
  now : ℕ
  transaction : Operation → Octets 12
  lag : Operation → ℕ

abbrev Outcome (α : Type) := Except String α × Inner

/-- The operator `?`. -/
def Outcome.andThen {α β : Type} (r : Outcome α) (f : α → Inner → Outcome β) : Outcome β :=
  match r with
  | (.ok a, s) => f a s
  | (.error e, s) => (.error e, s)

/-! ### Reading a response -/

/-- `error_code`. -/
def errorCode (m : Message) : Option ℕ :=
  match (m.findAttribute attrErrorCode).map Attribute.value with
  | some (_ :: _ :: hundreds :: number :: _) =>
    if 6 < hundreds.toNat ∨ 99 < number.toNat then none
    else some (hundreds.toNat * 100 + number.toNat)
  | _ => none

/-- `response_requires_integrity`. -/
def responseRequiresIntegrity (m : Message) : Bool :=
  match m.class with
  | .success => true
  | .error => errorCode m ∉ [some 400, some 401, some 420, some 438]
  | _ => false

/-- `is_fingerprinted_allocation_mismatch`. -/
def isFingerprintedAllocationMismatch (P : Primitives) (m : Message) : Bool :=
  m.class = .error && errorCode m = some 437 && m.fingerprintValid P = some true

/-- `requires_allocation_recreate`. -/
def requiresAllocationRecreate (operation : Operation) (code : ℕ) : Bool :=
  code = 437 || (operation = .channel && code = 400)

/-- `attribute_u32`. -/
def attributeU32 (m : Message) (kind : BitVec 16) : Option (BitVec 32) :=
  match (m.findAttribute kind).map Attribute.value with
  | some [b₀, b₁, b₂, b₃] => some (be32 b₀ b₁ b₂ b₃)
  | _ => none

/-- The mask over the octets of an IPv6 address. -/
def xorMask (transaction : Octets 12) : Octets 16 :=
  ⟨bytes32 magicCookie ++ transaction.val, by rw [List.length_append, transaction.property]; rfl⟩

def xorOctets (a b : Octets 16) : Octets 16 :=
  ⟨List.zipWith (· ^^^ ·) a.val b.val, by
    rw [List.length_zipWith, a.property, b.property]; rfl⟩

/-- `encode_xor_address`. -/
def encodeXorAddress (address : SocketAddr) (transaction : Octets 12) : Bytes :=
  let port := bytes16 (address.port ^^^ magicCookie.extractLsb' 16 16)
  match address.ip with
  | .v4 bits => [0, 1] ++ port ++ bytes32 (bits ^^^ magicCookie)
  | .v6 octets => [0, 2] ++ port ++ (xorOctets octets (xorMask transaction)).val

/-- `decode_xor_address`. -/
def decodeXorAddress (value : Bytes) (transaction : Octets 12) : Except String SocketAddr :=
  match value with
  | reserved :: family :: p₀ :: p₁ :: body =>
    if reserved ≠ 0 then .error "TURN XOR address is malformed"
    else
      let port := be16 p₀ p₁ ^^^ magicCookie.extractLsb' 16 16
      if family = 1 then
        match body with
        | [a, b, c, d] => .ok { ip := .v4 (be32 a b c d ^^^ magicCookie), port }
        | _ => .error "TURN XOR address family is invalid"
      else if h : family = 2 ∧ body.length = 16 then
        .ok { ip := .v6 (xorOctets ⟨body, h.2⟩ (xorMask transaction)), port }
      else .error "TURN XOR address family is invalid"
  | _ => .error "TURN XOR address is malformed"

/-- `allocation_refresh_deadline`. -/
def allocationRefreshDeadline (now : ℕ) (lifetime : Option (BitVec 32)) (interval : ℕ) : ℕ :=
  now + max (min interval (secs (lifetime.getD requestedAllocationLifetime).toNat / 2)) (millis 500)

/-- `keepalive_mix`. -/
def keepaliveMix (relay : SocketAddr) : ℕ :=
  match relay.ip with
  | .v4 bits => relay.port.toNat ^^^ bits.toNat
  | .v6 octets =>
    relay.port.toNat ^^^ (octets.val.drop 8).foldl (fun n octet => n * 256 + octet.toNat) 0

/-- `first_keepalive_deadline`. -/
def firstKeepaliveDeadline (now interval : ℕ) (relay : SocketAddr) : ℕ :=
  let spanMs := max (interval / millis 1 / 5) 1
  now + millis (interval / millis 1 - spanMs + keepaliveMix relay % (spanMs * 2 + 1))

namespace Inner

/-! ### Queues -/

def pushEvent (s : Inner) (event : NativeEvent) : Inner :=
  { s with
    events :=
      if s.events.length = eventCapacity then
        s.events.tail ++ [{ kind := .eventOverflow, status := resultBufferTooSmall, dropped := 1 }]
      else s.events ++ [event] }

def queuePacket (s : Inner) (packet : Bytes) : Inner :=
  if s.controls.length = controlCapacity then
    let s := s.pushEvent { kind := .controlOverflow, status := resultBufferTooSmall, dropped := 1 }
    { s with controls := s.controls.tail ++ [{ packet, destination := s.server }] }
  else { s with controls := s.controls ++ [{ packet, destination := s.server }] }

def queueKeepalive (s : Inner) : Inner :=
  match s.channel with
  | none => s
  | some channel => s.queuePacket (bytes16 channel ++ bytes16 1 ++ [0xff, 0, 0, 0])

/-- `remove_queued_transaction`; a packet shorter than twenty bytes is no match. -/
def removeQueuedTransaction (s : Inner) (transaction : Octets 12) : Inner :=
  { s with controls := s.controls.filter fun c => (c.packet.drop 8).take 12 ≠ transaction.val }

def setState (s : Inner) (state : TurnState) : Inner :=
  if s.state = state then s
  else { s with state }.pushEvent { kind := .state, state, previousState := s.state }

def complete (s : Inner) (operation : Operation) (status : ℤ) (stunCode : ℕ) : Inner :=
  s.pushEvent
    { kind := .requestComplete, method := operation.method, status, stunCode, state := s.state,
      channel := s.channel.getD 0, address := s.relay }

/-! ### Starting an operation -/

def setAuth (P : Primitives) (s : Inner) (realm nonce : Bytes) : Inner :=
  { s with
    key := some (P.md5 (s.username ++ [0x3a] ++ realm ++ [0x3a] ++ s.password))
    realm := some realm
    nonce := some nonce }

def hasOperation (s : Inner) (operation : Operation) : Bool :=
  s.pending.any (·.operation = operation)

def transactionTimeout (s : Inner) : ℕ :=
  match s.transport with
  | .datagram => initialRto
  | .stream => streamTransactionTimeout

/-- The attributes that depend on the operation. -/
def requestBuilder (s : Inner) (operation : Operation) (transaction : Octets 12) :
    MessageBuilder :=
  let builder := MessageBuilder.withTransaction operation.method transaction
  match operation with
  | .allocate =>
    ((builder.addAttribute attrRequestedTransport [17, 0, 0, 0]).addAttribute
      attrRequestedAddressFamily [if s.peer.isIpv4 then 1 else 2, 0, 0, 0]).addAttribute
        attrLifetime (bytes32 requestedAllocationLifetime)
  | .refresh => builder.addAttribute attrLifetime (bytes32 requestedAllocationLifetime)
  | .deallocate => builder.addAttribute attrLifetime (bytes32 0)
  | .permission => builder.addAttribute attrXorPeerAddress (encodeXorAddress s.peer transaction)
  | .channel =>
    (builder.addAttribute attrChannelNumber [0x40, 0, 0, 0]).addAttribute
      attrXorPeerAddress (encodeXorAddress s.peer transaction)

def buildRequest (P : Primitives) (s : Inner) (operation : Operation) (transaction : Octets 12)
    (authenticated : Bool) : Except String Bytes :=
  let builder := s.requestBuilder operation transaction
  if authenticated then
    let builder := ((builder.addAttribute attrUsername s.username).addAttribute
      attrRealm (s.realm.getD [])).addAttribute attrNonce (s.nonce.getD [])
    match s.key with
    | some key => builder.finishAuthenticated P key
    | none => .error "TURN authentication key missing"
  else builder.finish P

/-- The transaction of a request that has just been queued. -/
def begun (env : Env) (s : Inner) (operation : Operation) (packet : Bytes)
    (authenticated : Bool) (nonceRetries : ℕ) : Pending :=
  { operation, packet, nonceRetries, authenticated
    transaction := env.transaction operation
    nextAttempt := env.now + env.lag operation + s.transactionTimeout
    rto := initialRto
    transmissions := 1 }

/-- An operation is pending once at most; the packet of a ChannelBind already on
its way is queued again. -/
def startOperation (P : Primitives) (env : Env) (s : Inner) (operation : Operation)
    (authenticated : Bool) (nonceRetries : ℕ) : Outcome Unit :=
  match s.pending.find? (·.operation = operation) with
  | some pending =>
    (.ok (), if operation = .channel then s.queuePacket pending.packet else s)
  | none =>
    if authenticated && (s.realm.isNone || s.nonce.isNone || s.key.isNone) then
      (.error "TURN authentication state is incomplete", s)
    else
      match s.buildRequest P operation (env.transaction operation) authenticated with
      | .error e => (.error e, s)
      | .ok packet =>
        (.ok (),
          { s.queuePacket packet with
            pending := s.pending ++ [s.begun env operation packet authenticated nonceRetries] })

/-! ### Ending an operation -/

def destroyAllocation (s : Inner) (operation : Operation) (status : ℤ) (stunCode : ℕ) : Inner :=
  { s.complete operation status stunCode with
    controls := []
    pending := []
    channel := none
    allocationRefresh := none
    allocationExpiresAt := none
    maintenanceRefresh := none
    permissionRetry := none
    channelRetry := none
    keepalive := none
    relay := none }.setState (if operation = Operation.deallocate then .deallocated else .destroying)

/-- `destroy_after_channel_rebind_exhausted`: the allocation is kept, so that a
shutdown can still give it back. -/
def destroyAfterChannelRebindExhausted (s : Inner) : Inner :=
  ({ s with
    controls := []
    pending := []
    channel := none
    maintenanceRefresh := none
    permissionRetry := none
    channelRetry := none
    keepalive := none }.pushEvent
      { kind := .channelRebindExhausted, status := resultTimeout, state := .destroying }).setState
        .destroying

/-- The delay before the retry that follows this many failures. -/
def retryDelay (failures : ℕ) : ℕ :=
  min (maintenanceRetryBase * 2 ^ min (failures - 1) 5) maintenanceRetryMax

/-- `schedule_maintenance_retry`: false when the ChannelBind has failed too often. -/
def scheduleMaintenanceRetry (s : Inner) (operation : Operation) (now : ℕ) : Bool × Inner :=
  match operation with
  | .refresh =>
    let failures := min (s.refreshFailures + 1) 255
    (true, { s with
      refreshFailures := failures, allocationRefresh := some (now + retryDelay failures) })
  | .permission =>
    let failures := min (s.permissionFailures + 1) 255
    (true, { s with
      permissionFailures := failures, permissionRetry := some (now + retryDelay failures) })
  | .channel =>
    let failures := min (s.channelFailures + 1) 255
    if maxChannelMaintenanceFailures ≤ failures then (false, { s with channelFailures := failures })
    else
      (true, { s with
        channelFailures := failures, channelRetry := some (now + retryDelay failures) })
  | .allocate | .deallocate => (true, s)

def isMaintenance : Operation → Bool
  | .refresh | .permission | .channel => true
  | .allocate | .deallocate => false

def completeFailure (s : Inner) (operation : Operation) (status : ℤ) (stunCode now : ℕ) : Inner :=
  if isMaintenance operation ∧ s.state = .ready ∧ s.allocationExpiresAt.any (now < ·) then
    match (s.complete operation status stunCode).scheduleMaintenanceRetry operation now with
    | (true, s) => s
    | (false, s) => s.destroyAfterChannelRebindExhausted
  else s.destroyAllocation operation status stunCode

/-- The relayed address of an Allocate response, once it is accepted. -/
def relayed (s : Inner) (m : Message) : Except String SocketAddr :=
  match m.findAttribute attrXorRelayedAddress with
  | none => .error "TURN Allocate response has no relayed address"
  | some a =>
    match decodeXorAddress a.value m.transaction with
    | .error e => .error e
    | .ok relay =>
      if relay.isIpv4 ≠ s.peer.isIpv4 ∨ relay.port = 0 then
        .error "TURN Allocate response has invalid relayed address"
      else .ok relay

/-- The allocation and its deadlines after a granted lifetime. -/
def granted (s : Inner) (now : ℕ) (lifetime : Option (BitVec 32)) : Inner :=
  { s with
    allocationRefresh := some
      (allocationRefreshDeadline now lifetime s.profile.allocationRefresh)
    allocationExpiresAt := some (now + secs (lifetime.getD requestedAllocationLifetime).toNat)
    refreshFailures := 0 }

/-- The first grant, with the relayed address. -/
def allocated (s : Inner) (now : ℕ) (relay : SocketAddr) (lifetime : Option (BitVec 32)) :
    Inner :=
  { s.granted now lifetime with
    relay := some relay
    maintenanceRefresh := some (now + s.profile.maintenanceRefresh)
    keepalive := some (firstKeepaliveDeadline now s.profile.keepaliveInterval relay) }.pushEvent
      { kind := .relayAddress, address := some relay }

def completeSuccess (P : Primitives) (env : Env) (s : Inner) (operation : Operation)
    (m : Message) : Outcome Unit :=
  match operation with
  | .allocate =>
    match s.relayed m with
    | .error e => (.error e, s)
    | .ok relay =>
      let lifetime := attributeU32 m attrLifetime
      if lifetime.getD requestedAllocationLifetime = 0 then
        (.error "TURN Allocate response lifetime is zero", s)
      else
        let s := s.allocated env.now relay lifetime
        if s.shuttingDown then
          (s.setState .deallocating).startOperation P env .deallocate true 0
        else (.ok (), (s.setState .ready).complete operation 0 0)
  | .refresh =>
    let lifetime := attributeU32 m attrLifetime
    if lifetime.getD requestedAllocationLifetime = 0 then
      (.error "TURN Refresh response lifetime is zero", s)
    else (.ok (), (s.granted env.now lifetime).complete operation 0 0)
  | .deallocate =>
    if (attributeU32 m attrLifetime).getD 0 ≠ 0 then
      (.error "TURN deallocation response lifetime is not zero", s)
    else
      (.ok (), ({ s with
        relay := none
        allocationRefresh := none
        allocationExpiresAt := none }.complete operation 0 0).setState .deallocated)
  | .permission => (.ok (), { s with permissionFailures := 0 }.complete operation 0 0)
  | .channel =>
    (.ok (), ({ s with channel := some channelNumber, channelFailures := 0 }.pushEvent
      { kind := .channelBound, channel := channelNumber, address := some s.peer }).complete
        operation 0 0)

/-! ### Deadlines -/

/-- The deadlines that `next_deadline` looks at. -/
def deadlines (s : Inner) : List ℕ :=
  s.pending.map Pending.nextAttempt ++ s.allocationRefresh.toList ++ s.maintenanceRefresh.toList ++
    s.permissionRetry.toList ++ s.channelRetry.toList ++ s.keepalive.toList

def nextDeadline (s : Inner) : Option ℕ := s.deadlines.min?

end Inner

/-- The two ways to give a due transaction up. -/
def Pending.exhausted (p : Pending) (transport : TurnControlTransport) : Bool :=
  maxTransmissions ≤ p.transmissions || transport = .stream

def Pending.retransmitted (p : Pending) (now : ℕ) : Pending :=
  { p with
    transmissions := p.transmissions + 1
    rto := min (p.rto * 2) maxRto
    nextAttempt := now + min (p.rto * 2) maxRto }

namespace Inner

variable {s : Inner} {operation : Operation} {now : ℕ}

/-! ### What a step leaves alone -/

/-- The states differ in their queues only. -/
def Quiet (s t : Inner) : Prop := ∃ controls events, t = { s with controls, events }

theorem Quiet.refl (s : Inner) : Quiet s s := ⟨s.controls, s.events, rfl⟩

theorem Quiet.trans {s t u : Inner} (hst : Quiet s t) (htu : Quiet t u) : Quiet s u := by
  obtain ⟨_, _, rfl⟩ := hst
  obtain ⟨controls, events, rfl⟩ := htu
  exact ⟨controls, events, rfl⟩

theorem pushEvent_quiet (s : Inner) (event : NativeEvent) : Quiet s (s.pushEvent event) :=
  ⟨s.controls, _, rfl⟩

theorem complete_quiet (s : Inner) (operation : Operation) (status : ℤ) (stunCode : ℕ) :
    Quiet s (s.complete operation status stunCode) :=
  pushEvent_quiet s _

theorem queuePacket_quiet (s : Inner) (packet : Bytes) : Quiet s (s.queuePacket packet) := by
  rw [queuePacket]
  split_ifs
  · exact ⟨_, _, rfl⟩
  · exact ⟨_, _, rfl⟩

theorem queueKeepalive_quiet (s : Inner) : Quiet s s.queueKeepalive := by
  rw [queueKeepalive]
  split
  · exact .refl s
  · exact queuePacket_quiet s _

theorem removeQueuedTransaction_quiet (s : Inner) (transaction : Octets 12) :
    Quiet s (s.removeQueuedTransaction transaction) :=
  ⟨_, s.events, rfl⟩

theorem setState_eq (s : Inner) (state : TurnState) :
    ∃ events, s.setState state = { s with state, events } := by
  rw [setState]
  split_ifs with h
  · exact ⟨s.events, by rw [← h]⟩
  · exact ⟨_, rfl⟩

theorem destroyAllocation_eq (s : Inner) (operation : Operation) (status : ℤ) (stunCode : ℕ) :
    ∃ events, s.destroyAllocation operation status stunCode =
      { s with
        controls := []
        events
        pending := []
        channel := none
        allocationRefresh := none
        allocationExpiresAt := none
        maintenanceRefresh := none
        permissionRetry := none
        channelRetry := none
        keepalive := none
        relay := none
        state := if operation = .deallocate then .deallocated else .destroying } := by
  obtain ⟨events, h⟩ := setState_eq
    { s.complete operation status stunCode with
      controls := []
      pending := []
      channel := none
      allocationRefresh := none
      allocationExpiresAt := none
      maintenanceRefresh := none
      permissionRetry := none
      channelRetry := none
      keepalive := none
      relay := none } (if operation = .deallocate then .deallocated else .destroying)
  exact ⟨events, h⟩

theorem destroyAfterChannelRebindExhausted_eq (s : Inner) :
    ∃ events, s.destroyAfterChannelRebindExhausted =
      { s with
        controls := []
        events
        pending := []
        channel := none
        maintenanceRefresh := none
        permissionRetry := none
        channelRetry := none
        keepalive := none
        state := .destroying } := by
  rw [destroyAfterChannelRebindExhausted]
  obtain ⟨events, h⟩ := setState_eq ({ s with
    controls := []
    pending := []
    channel := none
    maintenanceRefresh := none
    permissionRetry := none
    channelRetry := none
    keepalive := none }.pushEvent
      { kind := .channelRebindExhausted, status := resultTimeout, state := .destroying })
    .destroying
  exact ⟨events, h⟩

/-- The state and time in which a failed maintenance request is tried again. -/
def Maintained (s : Inner) (now : ℕ) : Prop :=
  s.state = .ready ∧ s.allocationExpiresAt.any (now < ·)

theorem completeFailure_refresh (status : ℤ) (stunCode : ℕ) (h : s.Maintained now) :
    ∃ events failures, s.completeFailure .refresh status stunCode now =
      { s with
        events
        refreshFailures := failures
        allocationRefresh := some (now + retryDelay failures) } := by
  rw [completeFailure, if_pos ⟨rfl, h⟩]
  exact ⟨_, _, rfl⟩

theorem completeFailure_permission (status : ℤ) (stunCode : ℕ) (h : s.Maintained now) :
    ∃ events failures, s.completeFailure .permission status stunCode now =
      { s with
        events
        permissionFailures := failures
        permissionRetry := some (now + retryDelay failures) } := by
  rw [completeFailure, if_pos ⟨rfl, h⟩]
  exact ⟨_, _, rfl⟩

theorem completeFailure_channel (status : ℤ) (stunCode : ℕ) (h : s.Maintained now)
    (hfew : s.channelFailures + 1 < maxChannelMaintenanceFailures) :
    ∃ events, s.completeFailure .channel status stunCode now =
      { s with
        events
        channelFailures := s.channelFailures + 1
        channelRetry := some (now + retryDelay (s.channelFailures + 1)) } := by
  rw [completeFailure, if_pos ⟨rfl, h⟩]
  have hcount : min ((s.complete .channel status stunCode).channelFailures + 1) 255 =
      s.channelFailures + 1 :=
    min_eq_left (hfew.le.trans (by decide))
  simp only [scheduleMaintenanceRetry, hcount, if_neg (Nat.not_le.mpr hfew)]
  exact ⟨_, rfl⟩

theorem completeFailure_channel_exhausted (status : ℤ) (stunCode : ℕ) (h : s.Maintained now)
    (hmany : maxChannelMaintenanceFailures ≤ s.channelFailures + 1) :
    ∃ events failures, s.completeFailure .channel status stunCode now =
      { s with
        controls := []
        events
        pending := []
        channel := none
        channelFailures := failures
        maintenanceRefresh := none
        permissionRetry := none
        channelRetry := none
        keepalive := none
        state := .destroying } := by
  rw [completeFailure, if_pos ⟨rfl, h⟩]
  have hle : maxChannelMaintenanceFailures ≤
      min ((s.complete .channel status stunCode).channelFailures + 1) 255 := by
    show maxChannelMaintenanceFailures ≤ min (s.channelFailures + 1) 255
    exact le_min hmany (by decide)
  simp only [scheduleMaintenanceRetry, hle, if_true]
  obtain ⟨events, heq⟩ := destroyAfterChannelRebindExhausted_eq
    { s.complete .channel status stunCode with
      channelFailures := min ((s.complete .channel status stunCode).channelFailures + 1) 255 }
  exact ⟨events, _, heq⟩

theorem completeFailure_destroys (status : ℤ) (stunCode : ℕ)
    (h : ¬ (isMaintenance operation ∧ s.Maintained now)) :
    s.completeFailure operation status stunCode now =
      s.destroyAllocation operation status stunCode :=
  if_neg h

/-- What the failure of an operation makes of the core. -/
inductive Failed (s : Inner) (status : ℤ) (stunCode now : ℕ) : Operation → Inner → Prop where
  | refresh {events : List NativeEvent} {failures : ℕ} (h : s.Maintained now) :
      Failed s status stunCode now .refresh
        { s with
          events
          refreshFailures := failures
          allocationRefresh := some (now + retryDelay failures) }
  | permission {events : List NativeEvent} {failures : ℕ} (h : s.Maintained now) :
      Failed s status stunCode now .permission
        { s with
          events
          permissionFailures := failures
          permissionRetry := some (now + retryDelay failures) }
  | channel {events : List NativeEvent} (h : s.Maintained now)
      (hfew : s.channelFailures + 1 < maxChannelMaintenanceFailures) :
      Failed s status stunCode now .channel
        { s with
          events
          channelFailures := s.channelFailures + 1
          channelRetry := some (now + retryDelay (s.channelFailures + 1)) }
  | exhausted {events : List NativeEvent} {failures : ℕ} (h : s.Maintained now)
      (hmany : maxChannelMaintenanceFailures ≤ s.channelFailures + 1) :
      Failed s status stunCode now .channel
        { s with
          controls := []
          events
          pending := []
          channel := none
          channelFailures := failures
          maintenanceRefresh := none
          permissionRetry := none
          channelRetry := none
          keepalive := none
          state := .destroying }
  | destroyed {operation : Operation} (h : ¬ (isMaintenance operation ∧ s.Maintained now)) :
      Failed s status stunCode now operation (s.destroyAllocation operation status stunCode)

theorem completeFailure_failed (s : Inner) (operation : Operation) (status : ℤ)
    (stunCode now : ℕ) :
    Failed s status stunCode now operation (s.completeFailure operation status stunCode now) := by
  by_cases h : isMaintenance operation ∧ s.Maintained now
  · cases operation with
    | allocate => exact absurd h.1 Bool.false_ne_true
    | deallocate => exact absurd h.1 Bool.false_ne_true
    | refresh =>
      obtain ⟨_, _, heq⟩ := completeFailure_refresh status stunCode h.2
      rw [heq]
      exact .refresh h.2
    | permission =>
      obtain ⟨_, _, heq⟩ := completeFailure_permission status stunCode h.2
      rw [heq]
      exact .permission h.2
    | channel =>
      by_cases hfew : s.channelFailures + 1 < maxChannelMaintenanceFailures
      · obtain ⟨_, heq⟩ := completeFailure_channel status stunCode h.2 hfew
        rw [heq]
        exact .channel h.2 hfew
      · have hmany := Nat.not_lt.mp hfew
        obtain ⟨_, _, heq⟩ := completeFailure_channel_exhausted status stunCode h.2 hmany
        rw [heq]
        exact .exhausted h.2 hmany
  · rw [completeFailure_destroys status stunCode h]
    exact .destroyed h

/-- A failure keeps the transactions that are left, or drops them all. -/
theorem completeFailure_pending (s : Inner) (operation : Operation) (status : ℤ)
    (stunCode now : ℕ) :
    (s.completeFailure operation status stunCode now).pending = s.pending ∨
      (s.completeFailure operation status stunCode now).pending = [] := by
  have hfailed := completeFailure_failed s operation status stunCode now
  generalize s.completeFailure operation status stunCode now = t at hfailed ⊢
  cases hfailed with
  | refresh | permission | channel => exact .inl rfl
  | exhausted => exact .inr rfl
  | destroyed =>
    obtain ⟨_, heq⟩ := destroyAllocation_eq s operation status stunCode
    exact .inr (by rw [heq])

/-! ### Expiring transactions -/

/-- The transaction is given up, and the operation has failed. -/
def expire (s : Inner) (index : ℕ) (p : Pending) (now : ℕ) : Inner :=
  ({ s with pending := s.pending.eraseIdx index }.removeQueuedTransaction
    p.transaction).completeFailure p.operation resultTimeout 0 now

/-- The loop of `expire_transactions`, from this index on. -/
def expireFrom (s : Inner) (now index : ℕ) : Inner :=
  if h : index < s.pending.length then
    let p := s.pending[index]
    if now < p.nextAttempt then s.expireFrom now (index + 1)
    else if p.exhausted s.transport then (s.expire index p now).expireFrom now index
    else
      { s.queuePacket p.packet with
        pending := s.pending.set index (p.retransmitted now) }.expireFrom now (index + 1)
  else s
termination_by s.pending.length - index
decreasing_by
  · omega
  · have hlt : (s.pending.eraseIdx index).length < s.pending.length := by
      rw [List.length_eraseIdx_of_lt h]
      omega
    rw [expire]
    rcases completeFailure_pending ({ s with pending := s.pending.eraseIdx index
      }.removeQueuedTransaction p.transaction) p.operation resultTimeout 0 now with heq | heq
    · rw [heq]
      show (s.pending.eraseIdx index).length - index < _
      omega
    · rw [heq, List.length_nil]
      omega
  · rw [List.length_set]
    omega

def expireTransactions (s : Inner) (now : ℕ) : Inner := s.expireFrom now 0

end Inner

end Csqtt.Turn
