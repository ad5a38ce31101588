/-
The engines of one process.

The host starts and stops engines through C functions; each start spawns a thread
that runs `run`.  Engines of one process share slots that no engine owns: the
cancel token, the pause gate, the packet bridge, the local port, the tunnel address
and the count of live paths.  A step is one access to a slot, so the calls of the
host and the steps of all engines interleave in between.

Engines are numbered in the order of their starts.  A slot that holds a token, a
gate or a bridge holds the number of its engine here.  `TUN_DNS` is stored with
`TUN_IP` and read by nobody below, and is left out.
-/
import Csqtt.TransitionRun
import Mathlib.Logic.Function.Basic
import Mathlib.Algebra.Group.Nat.Defs

namespace Csqtt.EngineProcess

/-- How `Dispatcher::start` exchanges packets with the host. -/
inductive Mode where
  | tun
  | bridge
  /-- With the port that the socket is bound to. -/
  | udp (port : BitVec 16)
  deriving DecidableEq, Repr

/-- How far `run` has come. -/
inductive Phase where
  | absent
  /-- Before `ENGINE_CANCEL` is stored: the peer is resolved, Auto JS bootstraps. -/
  | bootstrap
  | published
  /-- `ACTIVE_PATHS.store(0)` is done. -/
  | zeroed
  /-- `ENGINE_PAUSE` is stored. -/
  | gated
  /-- Half of `clear_bridge` is done. -/
  | unready
  | cleared
  /-- Half of `install_uplink` is done. -/
  | linked
  /-- `Dispatcher::start` has returned. -/
  | bound
  | running
  /-- The loop is left and the token cancelled. -/
  | leaving
  /-- `ENGINE_PAUSE` is emptied; the groups and the tasks are waited for. -/
  | draining
  | ended
  deriving DecidableEq, Repr

/-- The bridge writer's task. -/
inductive Writer where
  | absent
  | writing
  /-- Half of its `clear_bridge` is done. -/
  | clearing
  | ended
  deriving DecidableEq, Repr

structure Engine where
  mode : Mode
  phase : Phase
  cancelled : Bool
  writer : Writer
  deriving DecidableEq, Repr

/-- What the host's thread does next. -/
inductive Caller where
  | idle
  | startUnready (mode : Mode)
  | startUnlink (mode : Mode)
  | startForget (mode : Mode)
  | startSpawn (mode : Mode)
  | stopCancel
  | stopUnready
  | stopUnlink
  | waitTun
  | waitPort
  | waitBridge
  deriving DecidableEq, Repr

structure Process where
  /-- `ENGINE_CANCEL`. -/
  engineCancel : Option ℕ
  /-- `ENGINE_PAUSE`. -/
  enginePause : Option ℕ
  /-- `BRIDGE_READY`. -/
  bridgeReady : Bool
  /-- `uplink_slot`. -/
  uplink : Option ℕ
  /-- `PACKET_PORT`. -/
  packetPort : BitVec 16
  /-- `TUN_IP`. -/
  tunIp : String
  /-- `ACTIVE_PATHS`. -/
  activePaths : BitVec 32
  /-- The engine of each live `ActiveConnection`. -/
  guards : List ℕ
  engines : ℕ → Engine
  started : ℕ
  caller : Caller

inductive Event where
  /-- `csqtt_engine_start`. -/
  | start (mode : Mode)
  /-- `csqtt_engine_stop`. -/
  | stop
  /-- `csqtt_engine_wait_ready`. -/
  | waitReady
  /-- The next access of the host's call. -/
  | call
  /-- The deadline of `csqtt_engine_wait_ready` has passed. -/
  | giveUp
  /-- The next access of an engine's `run`. -/
  | advance (e : ℕ)
  /-- The peer does not resolve, the bootstrap or `Dispatcher::start` fails. -/
  | fail (e : ℕ)
  /-- The workers are done, a signal has come, or a critical task has crashed. -/
  | selfCancel (e : ℕ)
  /-- The config task receives a new `TUNCONF`. -/
  | tunconf (e : ℕ) (ip : String)
  /-- The next access of the bridge writer. -/
  | writer (e : ℕ)
  /-- `ActiveConnection::new`. -/
  | connect (e : ℕ)
  /-- `ActiveConnection::drop`. -/
  | disconnect (e : ℕ)
  deriving DecidableEq, Repr

/-- `local_port`, which is "0" without a socket. -/
def Mode.localPort : Mode → BitVec 16
  | .udp port => port
  | _ => 0

/-- From the token's publication to the end of `run`. -/
def Phase.holdsToken : Phase → Bool
  | .absent | .bootstrap | .ended => false
  | _ => true

/-- The engine has a token that nobody has cancelled. -/
def Engine.Runs (engine : Engine) : Prop := engine.phase.holdsToken ∧ engine.cancelled = false

instance (engine : Engine) : Decidable engine.Runs := inferInstanceAs (Decidable (_ ∧ _))

/-- The phases in which the tasks of `run` are alive. -/
def Phase.serves : Phase → Bool
  | .running | .leaving | .draining => true
  | _ => false

namespace Process

def new : Process where
  engineCancel := none
  enginePause := none
  bridgeReady := false
  uplink := none
  packetPort := 0
  tunIp := ""
  activePaths := 0
  guards := []
  engines := fun _ => ⟨.tun, .absent, false, .absent⟩
  started := 0
  caller := .idle

def setEngine (s : Process) (e : ℕ) (engine : Engine) : Process :=
  { s with engines := Function.update s.engines e engine }

def setPhase (s : Process) (e : ℕ) (phase : Phase) : Process :=
  s.setEngine e { s.engines e with phase }

def setWriter (s : Process) (e : ℕ) (writer : Writer) : Process :=
  s.setEngine e { s.engines e with writer }

def cancel (s : Process) (e : ℕ) : Process := s.setEngine e { s.engines e with cancelled := true }

/-- The next access of `run`. -/
def advance (s : Process) (e : ℕ) : Option Process :=
  let engine := s.engines e
  match engine.phase with
  | .absent | .ended => none
  | .bootstrap => some ({ s with engineCancel := some e }.setPhase e .published)
  | .published => some ({ s with activePaths := 0 }.setPhase e .zeroed)
  | .zeroed => some ({ s with enginePause := some e }.setPhase e .gated)
  | .gated => some ({ s with bridgeReady := false }.setPhase e .unready)
  | .unready => some ({ s with uplink := none }.setPhase e .cleared)
  | .cleared =>
    match engine.mode with
    | .bridge => some ({ s with uplink := some e }.setPhase e .linked)
    | _ => some (s.setPhase e .bound)
  | .linked =>
    some ({ s with bridgeReady := true }.setEngine e
      { engine with phase := .bound, writer := .writing })
  | .bound => some ({ s with packetPort := engine.mode.localPort }.setPhase e .running)
  | .running => if engine.cancelled then some (s.setPhase e .leaving) else none
  | .leaving => some ({ s with enginePause := none }.setPhase e .draining)
  | .draining =>
    -- `dispatcher.shutdown` waits for the writer
    if engine.writer = .writing ∨ engine.writer = .clearing then none
    else some (s.setPhase e .ended)

/-- What the bridge writer does once its queue reports the cancellation. -/
def writer (s : Process) (e : ℕ) : Option Process :=
  match (s.engines e).writer with
  | .writing =>
    if (s.engines e).cancelled then some ({ s with bridgeReady := false }.setWriter e .clearing)
    else none
  | .clearing => some ({ s with uplink := none }.setWriter e .ended)
  | _ => none

/-- The next access of the host's call. -/
def call (s : Process) : Option Process :=
  match s.caller with
  | .idle => none
  | .startUnready mode => some { s with bridgeReady := false, caller := .startUnlink mode }
  | .startUnlink mode => some { s with uplink := none, caller := .startForget mode }
  | .startForget mode => some { s with tunIp := "", caller := .startSpawn mode }
  | .startSpawn mode =>
    some ({ s with started := s.started + 1, caller := .idle }.setEngine s.started
      ⟨mode, .bootstrap, false, .absent⟩)
  | .stopCancel =>
    let s := { s with caller := .stopUnready }
    match s.engineCancel with
    | none => some s
    | some e => some (s.cancel e)
  | .stopUnready => some { s with bridgeReady := false, caller := .stopUnlink }
  | .stopUnlink => some { s with uplink := none, caller := .idle }
  | .waitTun => some { s with caller := if s.tunIp.isEmpty then .waitTun else .waitPort }
  | .waitPort => some { s with caller := if s.packetPort = 0 then .waitBridge else .idle }
  | .waitBridge => some { s with caller := if s.bridgeReady then .idle else .waitTun }

def step (s : Process) : Event → Option Process
  | .start mode =>
    if s.caller = .idle then some { s with packetPort := 0, caller := .startUnready mode } else none
  | .stop =>
    if s.caller = .idle then some { s with enginePause := none, caller := .stopCancel } else none
  | .waitReady => if s.caller = .idle then some { s with caller := .waitTun } else none
  | .call => s.call
  | .giveUp => if s.caller = .waitTun then some { s with caller := .idle } else none
  | .advance e => s.advance e
  | .fail e =>
    if (s.engines e).phase = .bootstrap ∨ (s.engines e).phase = .cleared then
      some (s.setPhase e .ended)
    else none
  | .selfCancel e => if (s.engines e).phase.holdsToken then some (s.cancel e) else none
  | .tunconf e ip => if (s.engines e).phase.serves then some { s with tunIp := ip } else none
  | .writer e => s.writer e
  | .connect e =>
    if (s.engines e).phase.serves then
      some { s with activePaths := s.activePaths + 1, guards := e :: s.guards }
    else none
  | .disconnect e =>
    if e ∈ s.guards then
      some { s with activePaths := s.activePaths - 1, guards := s.guards.erase e }
    else none

end Process

/-- All accesses of `csqtt_engine_start`, with the packet bridge. -/
def startCall : List Event := .start .bridge :: List.replicate 4 .call

/-- All accesses of `csqtt_engine_stop`. -/
def stopCall : List Event := .stop :: List.replicate 3 .call

/-! ### What a step can do -/

/-- The accesses of `run`. -/
inductive Advance (s : Process) (e : ℕ) : Process → Prop where
  | publish (h : (s.engines e).phase = .bootstrap) :
      Advance s e ({ s with engineCancel := some e }.setPhase e .published)
  | zero (h : (s.engines e).phase = .published) :
      Advance s e ({ s with activePaths := 0 }.setPhase e .zeroed)
  | gate (h : (s.engines e).phase = .zeroed) :
      Advance s e ({ s with enginePause := some e }.setPhase e .gated)
  | unready (h : (s.engines e).phase = .gated) :
      Advance s e ({ s with bridgeReady := false }.setPhase e .unready)
  | unlink (h : (s.engines e).phase = .unready) :
      Advance s e ({ s with uplink := none }.setPhase e .cleared)
  | link (h : (s.engines e).phase = .cleared) (hmode : (s.engines e).mode = .bridge) :
      Advance s e ({ s with uplink := some e }.setPhase e .linked)
  | bind (h : (s.engines e).phase = .cleared) (hmode : (s.engines e).mode ≠ .bridge) :
      Advance s e (s.setPhase e .bound)
  | ready (h : (s.engines e).phase = .linked) :
      Advance s e ({ s with bridgeReady := true }.setEngine e
        { s.engines e with phase := .bound, writer := .writing })
  | listen (h : (s.engines e).phase = .bound) :
      Advance s e ({ s with packetPort := (s.engines e).mode.localPort }.setPhase e .running)
  | leave (h : (s.engines e).phase = .running) (hcancel : (s.engines e).cancelled) :
      Advance s e (s.setPhase e .leaving)
  | ungate (h : (s.engines e).phase = .leaving) :
      Advance s e ({ s with enginePause := none }.setPhase e .draining)
  | finish (h : (s.engines e).phase = .draining) : Advance s e (s.setPhase e .ended)

theorem advance_of_step {s t : Process} {e : ℕ} (h : s.advance e = some t) : Advance s e t := by
  rcases hphase : (s.engines e).phase with _ | _ | _ | _ | _ | _ | _ | _ | _ | _ | _ | _ | _
  all_goals simp only [Process.advance, hphase] at h
  · exact nomatch h
  · exact Option.some.inj h ▸ .publish hphase
  · exact Option.some.inj h ▸ .zero hphase
  · exact Option.some.inj h ▸ .gate hphase
  · exact Option.some.inj h ▸ .unready hphase
  · exact Option.some.inj h ▸ .unlink hphase
  · split at h
    · next hmode => exact Option.some.inj h ▸ .link hphase hmode
    · next hmode => exact Option.some.inj h ▸ .bind hphase hmode
  · exact Option.some.inj h ▸ .ready hphase
  · exact Option.some.inj h ▸ .listen hphase
  · split_ifs at h with hcancel
    exact Option.some.inj h ▸ .leave hphase hcancel
  · exact Option.some.inj h ▸ .ungate hphase
  · split_ifs at h
    exact Option.some.inj h ▸ .finish hphase
  · exact nomatch h

/-- The accesses of the bridge writer. -/
inductive Write (s : Process) (e : ℕ) : Process → Prop where
  | unready (h : (s.engines e).writer = .writing) (hcancel : (s.engines e).cancelled) :
      Write s e ({ s with bridgeReady := false }.setWriter e .clearing)
  | unlink (h : (s.engines e).writer = .clearing) :
      Write s e ({ s with uplink := none }.setWriter e .ended)

theorem write_of_step {s t : Process} {e : ℕ} (h : s.writer e = some t) : Write s e t := by
  rcases hwriter : (s.engines e).writer with _ | _ | _ | _
  all_goals simp only [Process.writer, hwriter] at h
  · exact nomatch h
  · split_ifs at h with hcancel
    exact Option.some.inj h ▸ .unready hwriter hcancel
  · exact Option.some.inj h ▸ .unlink hwriter
  · exact nomatch h

/-- The accesses of the host's calls. -/
inductive Call (s : Process) : Process → Prop where
  | startUnready {mode : Mode} (h : s.caller = .startUnready mode) :
      Call s { s with bridgeReady := false, caller := .startUnlink mode }
  | startUnlink {mode : Mode} (h : s.caller = .startUnlink mode) :
      Call s { s with uplink := none, caller := .startForget mode }
  | startForget {mode : Mode} (h : s.caller = .startForget mode) :
      Call s { s with tunIp := "", caller := .startSpawn mode }
  | startSpawn {mode : Mode} (h : s.caller = .startSpawn mode) :
      Call s ({ s with started := s.started + 1, caller := .idle }.setEngine s.started
        ⟨mode, .bootstrap, false, .absent⟩)
  | stopMiss (h : s.caller = .stopCancel) (hslot : s.engineCancel = none) :
      Call s { s with caller := .stopUnready }
  | stopCancel {e : ℕ} (h : s.caller = .stopCancel) (hslot : s.engineCancel = some e) :
      Call s ({ s with caller := .stopUnready }.cancel e)
  | stopUnready (h : s.caller = .stopUnready) :
      Call s { s with bridgeReady := false, caller := .stopUnlink }
  | stopUnlink (h : s.caller = .stopUnlink) : Call s { s with uplink := none, caller := .idle }
  | waitTun (h : s.caller = .waitTun) :
      Call s { s with caller := if s.tunIp.isEmpty then .waitTun else .waitPort }
  | waitPort (h : s.caller = .waitPort) :
      Call s { s with caller := if s.packetPort = 0 then .waitBridge else .idle }
  | waitBridge (h : s.caller = .waitBridge) :
      Call s { s with caller := if s.bridgeReady then .idle else .waitTun }

theorem call_of_step {s t : Process} (h : s.call = some t) : Call s t := by
  rcases hcaller : s.caller with _ | _ | _ | _ | _ | _ | _ | _ | _ | _ | _
  all_goals simp only [Process.call, hcaller] at h
  · exact nomatch h
  · exact Option.some.inj h ▸ .startUnready hcaller
  · exact Option.some.inj h ▸ .startUnlink hcaller
  · exact Option.some.inj h ▸ .startForget hcaller
  · exact Option.some.inj h ▸ .startSpawn hcaller
  · split at h
    · next hslot => exact Option.some.inj h ▸ .stopMiss hcaller hslot
    · next hslot => exact Option.some.inj h ▸ .stopCancel hcaller hslot
  · exact Option.some.inj h ▸ .stopUnready hcaller
  · exact Option.some.inj h ▸ .stopUnlink hcaller
  · exact Option.some.inj h ▸ .waitTun hcaller
  · exact Option.some.inj h ▸ .waitPort hcaller
  · exact Option.some.inj h ▸ .waitBridge hcaller

/-- The accesses of everybody. -/
inductive Step (s : Process) : Event → Process → Prop where
  | start {mode : Mode} (h : s.caller = .idle) :
      Step s (.start mode) { s with packetPort := 0, caller := .startUnready mode }
  | stop (h : s.caller = .idle) :
      Step s .stop { s with enginePause := none, caller := .stopCancel }
  | waitReady (h : s.caller = .idle) : Step s .waitReady { s with caller := .waitTun }
  | call {t : Process} (h : Call s t) : Step s .call t
  | giveUp (h : s.caller = .waitTun) : Step s .giveUp { s with caller := .idle }
  | advance {e : ℕ} {t : Process} (h : Advance s e t) : Step s (.advance e) t
  | fail {e : ℕ} (h : (s.engines e).phase = .bootstrap ∨ (s.engines e).phase = .cleared) :
      Step s (.fail e) (s.setPhase e .ended)
  | selfCancel {e : ℕ} (h : (s.engines e).phase.holdsToken) :
      Step s (.selfCancel e) (s.cancel e)
  | tunconf {e : ℕ} {ip : String} (h : (s.engines e).phase.serves) :
      Step s (.tunconf e ip) { s with tunIp := ip }
  | writer {e : ℕ} {t : Process} (h : Write s e t) : Step s (.writer e) t
  | connect {e : ℕ} (h : (s.engines e).phase.serves) :
      Step s (.connect e) { s with activePaths := s.activePaths + 1, guards := e :: s.guards }
  | disconnect {e : ℕ} (h : e ∈ s.guards) :
      Step s (.disconnect e)
        { s with activePaths := s.activePaths - 1, guards := s.guards.erase e }

theorem step_cases {s t : Process} {ev : Event} (h : s.step ev = some t) : Step s ev t := by
  cases ev with
  | call => exact .call (call_of_step h)
  | advance e => exact .advance (advance_of_step h)
  | writer e => exact .writer (write_of_step h)
  | start mode =>
    rw [Process.step] at h
    split_ifs at h with hidle
    exact Option.some.inj h ▸ .start hidle
  | stop =>
    rw [Process.step] at h
    split_ifs at h with hidle
    exact Option.some.inj h ▸ .stop hidle
  | waitReady =>
    rw [Process.step] at h
    split_ifs at h with hidle
    exact Option.some.inj h ▸ .waitReady hidle
  | giveUp =>
    rw [Process.step] at h
    split_ifs at h with hwait
    exact Option.some.inj h ▸ .giveUp hwait
  | fail e =>
    rw [Process.step] at h
    split_ifs at h with hphase
    exact Option.some.inj h ▸ .fail hphase
  | selfCancel e =>
    rw [Process.step] at h
    split_ifs at h with htoken
    exact Option.some.inj h ▸ .selfCancel htoken
  | tunconf e ip =>
    rw [Process.step] at h
    split_ifs at h with hserves
    exact Option.some.inj h ▸ .tunconf hserves
  | connect e =>
    rw [Process.step] at h
    split_ifs at h with hserves
    exact Option.some.inj h ▸ .connect hserves
  | disconnect e =>
    rw [Process.step] at h
    split_ifs at h with hmem
    exact Option.some.inj h ▸ .disconnect hmem

/-- The engine whose access it is, if it is not the host's. -/
def Event.engine : Event → Option ℕ
  | .advance e | .fail e | .selfCancel e | .tunconf e _ | .writer e | .connect e | .disconnect e =>
    some e
  | _ => none

/-- The engines leave the host's thread alone. -/
theorem Step.caller_of_engine {s t : Process} {ev : Event} {e : ℕ} (h : Step s ev t)
    (hev : ev.engine = some e) : t.caller = s.caller ∧ t.started = s.started := by
  cases h with
  | advance h =>
    cases h with
    | publish | zero | gate | unready | unlink | link | bind | ready | listen | leave | ungate
    | finish => exact ⟨rfl, rfl⟩
  | writer h =>
    cases h with
    | unready | unlink => exact ⟨rfl, rfl⟩
  | fail | selfCancel | tunconf | connect | disconnect => exact ⟨rfl, rfl⟩
  | start | stop | waitReady | call | giveUp => exact nomatch hev

theorem setEngine_engines (s : Process) (e i : ℕ) (engine : Engine) :
    (s.setEngine e engine).engines i = if i = e then engine else s.engines i :=
  Function.update_apply ..

end Csqtt.EngineProcess
