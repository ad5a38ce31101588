/-
The driver of an allocation: what it shares with the owner, and how it pumps the core.

A pump polls the core, hands its packets to the transport, and looks at its events one
after the other.  The owner can call the core between any two of these steps, so each is a
function of its own; `pumpNative` is a pump that nobody interrupts.
-/
import Csqtt.TurnCore

namespace Csqtt.Turn

open Stun

/-- The number of a state. -/
def TurnState.number : TurnState → ℕ
  | .null => 0
  | .allocating => 3
  | .ready => 4
  | .deallocating => 5
  | .deallocated => 6
  | .destroying => 7

/-! ### What is shared -/

structure Completion where
  sequence : BitVec 64 := 0
  status : ℤ := 0
  stunCode : ℕ := 0

/-- How a pump fails. -/
inductive PumpError where
  /-- An error of the core. -/
  | core (error : String)
  | unexpectedDestination (destination : SocketAddr)
  | send (error : String)
  | addressFamily
  | relayUnavailable
  | relayMismatch

/-- The reasons that `fail` is given. -/
inductive Terminal where
  /-- `fail_turn_request`. -/
  | request (method : BitVec 16) (status : ℤ) (stunCode : ℕ)
  | unexpectedPeer (peer : SocketAddr)
  | invalidChannel (channel : BitVec 16)
  | controlOverflow (dropped : ℕ)
  | forceDestroyed
  | rebindExhausted
  | eventOverflow (dropped : ℕ)
  | unexpectedDestroying
  | pump (error : PumpError)
  | receive (error : String)
  | transmit (error : String)
  /-- A reason of the owner. -/
  | owner (error : String)

structure CoreSnapshot where
  state : TurnState := .null
  relay : Option SocketAddr := none
  channel : Option (BitVec 16) := none
  allocate : Completion := {}
  refresh : Completion := {}
  permission : Completion := {}
  channelBind : Completion := {}
  terminal : Option Terminal := none

/-- The completions of a method. -/
def CoreSnapshot.completion (c : CoreSnapshot) (method : BitVec 16) : Completion :=
  if method = 3 then c.allocate
  else if method = 4 then c.refresh
  else if method = 8 then c.permission
  else if method = 9 then c.channelBind
  else c.allocate

/-- The fields of `DriverShared` that the driver's decisions depend on; `terminal_present`
says that the snapshot has a terminal reason. -/
structure DriverShared where
  snapshot : CoreSnapshot := {}
  /-- The permit of `wake`. -/
  wake : Bool := false
  closing : Bool := false
  controlSent : Bool := false
  channel : BitVec 16 := 0

namespace DriverShared

def fail (d : DriverShared) (reason : Terminal) : DriverShared :=
  if d.closing ∨ d.snapshot.terminal.isSome then d
  else { d with snapshot := { d.snapshot with terminal := some reason } }

def requestCleanup (d : DriverShared) : DriverShared :=
  { d with closing := true, channel := 0, wake := true }

/-- `EVENT_STATE`. -/
def noteState (d : DriverShared) (state : TurnState) : DriverShared :=
  { d with
    channel := if state ≠ .ready then 0 else d.channel
    snapshot := { d.snapshot with
      state
      channel := if state ≠ .ready then none else d.snapshot.channel
      relay := if TurnState.deallocated.number ≤ state.number then none else d.snapshot.relay } }

/-- `completion_mut`, with the result of a request. -/
def noteCompletion (d : DriverShared) (method : BitVec 16) (status : ℤ) (stunCode : ℕ) :
    DriverShared :=
  let next (c : Completion) : Completion := { sequence := c.sequence + 1, status, stunCode }
  let snapshot := d.snapshot
  { d with
    snapshot :=
      if method = 3 then { snapshot with allocate := next snapshot.allocate }
      else if method = 4 then { snapshot with refresh := next snapshot.refresh }
      else if method = 8 then { snapshot with permission := next snapshot.permission }
      else if method = 9 then { snapshot with channelBind := next snapshot.channelBind }
      else snapshot }

end DriverShared

/-! ### The events of the core -/

/-- `is_retryable_maintenance`. -/
def isRetryableMaintenance (method : BitVec 16) : Bool := method ∈ [8, 9, 4]

/-- `is_allocation_mismatch_stun`. -/
def isAllocationMismatchStun (method : BitVec 16) (stunCode : ℕ) : Bool :=
  stunCode = 437 || (method = 9 && stunCode = 400)

/-- The variables of a pump. -/
structure Pump where
  shared : DriverShared
  unexpectedDestroy : Bool := false
  channelRebindExhausted : Bool := false

namespace Pump

def fail (p : Pump) (reason : Terminal) : Pump := { p with shared := p.shared.fail reason }

/-- One event of `pump_native`. -/
def event (core : Inner) (peer : SocketAddr) (p : Pump) (e : NativeEvent) : Except PumpError Pump :=
  match e.kind with
  | .state =>
    .ok { p with
      shared := p.shared.noteState e.state
      unexpectedDestroy := p.unexpectedDestroy || (e.state = .destroying && !p.shared.closing) }
  | .requestComplete =>
    let p := { p with shared := p.shared.noteCompletion e.method e.status e.stunCode }
    let mismatch := isAllocationMismatchStun e.method e.stunCode
    if (e.status ≠ 0 ∨ e.stunCode ≠ 0) ∧ ¬ p.shared.closing ∧
        (¬ isRetryableMaintenance e.method ∨ mismatch) then
      .ok (p.fail (.request e.method e.status e.stunCode))
    else .ok p
  | .stunResponseError =>
    if ¬ p.shared.closing ∧ isAllocationMismatchStun e.method e.stunCode then
      .ok (p.fail (.request e.method e.status e.stunCode))
    else .ok p
  | .channelBound =>
    match e.address with
    | none => .error .addressFamily
    | some eventPeer =>
      if eventPeer ≠ peer then .ok (p.fail (.unexpectedPeer eventPeer))
      else if ¬ (0x4000 ≤ e.channel ∧ e.channel ≤ 0x7fff) then
        .ok (p.fail (.invalidChannel e.channel))
      else
        .ok { p with shared := { p.shared with
          channel := e.channel
          snapshot := { p.shared.snapshot with channel := some e.channel } } }
  | .relayAddress =>
    match e.address, core.relay with
    | none, _ => .error .addressFamily
    | some _, none => .error .relayUnavailable
    | some relay, some queried =>
      if queried ≠ relay then .error .relayMismatch
      else
        .ok { p with shared := { p.shared with
          snapshot := { p.shared.snapshot with relay := some relay } } }
  | .controlOverflow => .ok (p.fail (.controlOverflow e.dropped))
  | .forcedDestroy => .ok (if p.shared.closing then p else p.fail .forceDestroyed)
  | .channelRebindExhausted => .ok { p with channelRebindExhausted := true }
  | .eventOverflow => .ok (p.fail (.eventOverflow e.dropped))

/-- When all events have been looked at. -/
def finish (p : Pump) : DriverShared :=
  if p.unexpectedDestroy ∧ p.shared.snapshot.terminal.isNone then
    p.shared.fail (if p.channelRebindExhausted then .rebindExhausted else .unexpectedDestroying)
  else p.shared

/-- The loop over the events, of a core that nobody else calls. -/
def events (core : Inner) (peer : SocketAddr) (p : Pump) : List NativeEvent → Except PumpError Pump
  | [] => .ok p
  | e :: es => (p.event core peer e).bind fun p => events core peer p es

end Pump

/-! ### What the events leave alone -/

/-- The two have the same permit and the same two flags. -/
structure DriverShared.SameFlags (d d' : DriverShared) : Prop where
  wake : d'.wake = d.wake
  closing : d'.closing = d.closing
  controlSent : d'.controlSent = d.controlSent

theorem DriverShared.fail_sameFlags (d : DriverShared) (reason : Terminal) :
    d.SameFlags (d.fail reason) := by
  rw [DriverShared.fail]
  split_ifs
  · exact ⟨rfl, rfl, rfl⟩
  · exact ⟨rfl, rfl, rfl⟩

theorem Pump.event_sameFlags {core : Inner} {peer : SocketAddr} {p q : Pump} {e : NativeEvent}
    (h : p.event core peer e = .ok q) : p.shared.SameFlags q.shared := by
  have hsame : ∀ p' : Pump, Except.ok (ε := PumpError) p' = .ok q →
      p.shared.SameFlags p'.shared → p.shared.SameFlags q.shared := by
    intro p' hok hflags
    obtain rfl := Except.ok.inj hok
    exact hflags
  have hfail : ∀ (p' : Pump) (reason : Terminal),
      Except.ok (ε := PumpError) (p'.fail reason) = .ok q →
      p.shared.SameFlags p'.shared → p.shared.SameFlags q.shared := by
    intro p' reason hok hflags
    have hfailed := p'.shared.fail_sameFlags reason
    exact hsame (p'.fail reason) hok ⟨hfailed.wake.trans hflags.wake,
      hfailed.closing.trans hflags.closing, hfailed.controlSent.trans hflags.controlSent⟩
  have hrefl : p.shared.SameFlags p.shared := ⟨rfl, rfl, rfl⟩
  simp only [Pump.event] at h
  rcases hkind : e.kind <;> simp only [hkind] at h
  · exact hsame _ h ⟨rfl, rfl, rfl⟩
  · have hnoted : p.shared.SameFlags (p.shared.noteCompletion e.method e.status e.stunCode) :=
      ⟨rfl, rfl, rfl⟩
    split_ifs at h
    · exact hfail { p with shared := p.shared.noteCompletion _ _ _ } _ h hnoted
    · exact hsame { p with shared := p.shared.noteCompletion _ _ _ } h hnoted
  · rcases haddress : e.address with _ | eventPeer <;> simp only [haddress] at h
    · cases h
    · split_ifs at h
      · exact hfail p _ h hrefl
      · exact hsame _ h ⟨rfl, rfl, rfl⟩
      · exact hfail p _ h hrefl
  · rcases haddress : e.address with _ | relay <;> rcases hrelay : core.relay with _ | queried <;>
      simp only [haddress, hrelay] at h
    · cases h
    · cases h
    · cases h
    · split_ifs at h
      exact hsame _ h ⟨rfl, rfl, rfl⟩
  · exact hfail p _ h hrefl
  · split_ifs at h
    · exact hsame p h hrefl
    · exact hfail p _ h hrefl
  · exact hfail p _ h hrefl
  · split_ifs at h
    · exact hfail p _ h hrefl
    · exact hsame p h hrefl
  · exact hsame _ h ⟨rfl, rfl, rfl⟩

theorem Pump.finish_sameFlags (p : Pump) : p.shared.SameFlags p.finish := by
  rw [Pump.finish]
  split_ifs
  · exact p.shared.fail_sameFlags _
  · exact p.shared.fail_sameFlags _
  · exact ⟨rfl, rfl, rfl⟩

/-! ### A whole pump -/

/-- One packet of the core: `none` when there is none left. -/
def pumpControl (send : Bytes → Except String Unit) (server : SocketAddr) (core : Inner) :
    Except PumpError (Option Unit) × Inner :=
  match NativeCore.pullControl core with
  | (.error e, core) => (.error (.core e), core)
  | (.ok none, core) => (.ok none, core)
  | (.ok (some (packet, destination)), core) =>
    if destination ≠ server then (.error (.unexpectedDestination destination), core)
    else
      match send packet with
      | .error e => (.error (.send e), core)
      | .ok () => (.ok (some ()), core)

/-- The loop over the packets; each turn takes one off the queue. -/
def pumpControls (send : Bytes → Except String Unit) (server : SocketAddr) :
    ℕ → Inner → DriverShared → Except PumpError Unit × Inner × DriverShared
  | 0, core, d => (.ok (), core, d)
  | turns + 1, core, d =>
    match pumpControl send server core with
    | (.error e, core) => (.error e, core, d)
    | (.ok none, core) => (.ok (), core, d)
    | (.ok (some ()), core) => pumpControls send server turns core { d with controlSent := true }

/-- `pump_native`; the transport answers `send`, and the owner does not call the core. -/
def pumpNative (P : Primitives) (env : Env) (send : Bytes → Except String Unit)
    (server peer : SocketAddr) (core : Inner) (d : DriverShared) :
    Except PumpError (Option ℕ × DriverShared) :=
  match NativeCore.poll P env core with
  | (.error e, _) => .error (.core e)
  | (.ok timer, core) =>
    match pumpControls send server (core.controls.length + 1) core d with
    | (.error e, _, _) => .error e
    | (.ok (), core, d) =>
      (Pump.events core peer { shared := d } core.events).map fun p => (timer, p.finish)

end Csqtt.Turn
