/-
The data-path guard of the Go helper.

The guard hears of the network from the host (`netlost`, `netback`, `stall`,
`handover`), from its own wake and network-change monitors, and from SOCKS dials.  It
heals a dead data path by a soft rebind of the engine's paths, or by a recycle, which
stops the engine and starts it again.

The functions of the guard run in many goroutines and hold `g.mu` in sections only.
Here a thread is a goroutine with what it does next, and a step is one section, one
call out of the guard, or the end of a sleep.  Generations are counted without an end,
times are nanoseconds of the monotonic clock.  The function fields that
`newDataPathGuard` sets are there, the others may be nil; `g.addr`, `cfgJSON` and
`readyWaitMs` have no part in what follows.
-/
import Csqtt.ThreadPool
import Csqtt.TransitionRun
import Mathlib.Data.Int.Notation

namespace Csqtt.DataPath

def second : ℕ := 1000000000
def minute : ℕ := 60 * second

def dataPathDialFailThreshold : ℕ := 3
def dataPathRecycleMinGap : ℕ := 45 * second
def dataPathMaxRecycles : ℕ := 8
def dataPathEngineSettle : ℕ := 800000000
def dataPathWakeGrace : ℕ := 30 * second
def dataPathRecycleStable : ℕ := 60 * second
def dataPathRebindMinGap : ℕ := 3 * second
def dataPathRebindSettle : ℕ := 1 * second
def dataPathRebindWait : ℕ := 15 * second
def dataPathRebindPoll : ℕ := 500000000
def dataPathSoftResumeWatch : ℕ := 25 * second

def dataPathPausedProbeDelays : List ℕ :=
  [30 * second, minute, 2 * minute, 5 * minute, 10 * minute, 15 * minute]

/-- The delay before probe `i`; the last one stays. -/
def probeDelay (i : ℕ) : ℕ :=
  dataPathPausedProbeDelays.getD (min i (dataPathPausedProbeDelays.length - 1)) 0

/-- Why the data path is healed, and who said that the network is back. -/
inductive Reason where
  | netback
  | stall
  | handover
  | netchange
  | probe
  | wake
  | dialTimeouts
  | zeroPaths
  /-- With `-rebind-timeout` behind it. -/
  | rebindTimeout (reason : Reason)
  /-- With `-rebind-gap` behind it. -/
  | rebindGap (reason : Reason)
  /-- With `-soft-dead` behind it. -/
  | softDead (reason : Reason)
  deriving DecidableEq, Repr

/-- The suffixes that `heal` sends straight to `requestRecycle`. -/
def Reason.retried : Reason → Bool
  | .rebindTimeout _ | .rebindGap _ => true
  | _ => false

/-- The engine as the guard's calls find it; a running one has a pause gate. -/
inductive Engine where
  | stopped
  /-- `startFn` has returned, the gate is not published yet. -/
  | starting
  | running (paused : Bool)
  deriving DecidableEq, Repr

def Engine.isRunning : Engine → Bool
  | .running _ => true
  | _ => false

/-- `pauseFn`. -/
def Engine.setPaused (v : Bool) : Engine → Engine
  | .running _ => .running v
  | engine => engine

/-- Which of the optional function fields are not nil. -/
structure Hooks where
  activeFn : Bool
  rebindFn : Bool
  probeFn : Bool
  rebuildTunFn : Bool
  deriving DecidableEq, Repr

/-- What a call out of the guard returns. -/
structure Reply where
  /-- No error, or `true`. -/
  ok : Bool
  /-- From `activeFn`. -/
  paths : ℤ
  /-- From `ipFn`, without the space around it. -/
  ip : String
  /-- From `portFn`. -/
  port : ℤ
  deriving DecidableEq, Repr

/-- The fields of `dataPathGuard`, the engine and the clock. -/
structure Guard where
  tunIP : String
  dialFails : ℕ
  recycles : ℕ
  lastRecycle : Option ℕ
  recycling : Bool
  paused : Bool
  pauseGen : ℕ
  /-- `pendingRecycle` with `pendingReason`. -/
  pendingRecycle : Option Reason
  graceUntil : Option ℕ
  lastRebind : Option ℕ
  rebindGen : ℕ
  rebindInFlight : Bool
  /-- `pendingHandover` with `pendingHandoverSource`. -/
  pendingHandover : Option Reason
  softResumeGen : ℕ
  exiting : Bool
  engine : Engine
  now : ℕ
  deriving DecidableEq, Repr

/-- The caller of `resumeFromPause`, to which it returns. -/
inductive After where
  | done
  | onHandover (source : Reason)
  | probeSucceeded (source : Reason) (need : Bool) (reason : Reason)
  deriving DecidableEq, Repr

/-- The steps of a recycle after its start. -/
inductive Recycle where
  | stopping
  | settling (wakeAt : ℕ)
  | waiting
  | checkIp
  | ipChanged
  | rebuilding (ip : String)
  | rebuilt (ip : String)
  | checkPort
  | finishing
  | failing
  deriving DecidableEq, Repr

/-- What a goroutine does next. -/
inductive Thread where
  | ended
  /-- `applyEnginePause(true)` of `netlost`. -/
  | netlost (gen : ℕ)
  /-- The section of `resumeFromPause`. -/
  | resume (source : Reason) (k : After)
  /-- `applyEnginePause(false)` of `resumeFromPause`. -/
  | resumed (source : Reason) (need : Bool) (reason : Reason) (k : After)
  /-- The section of `onHandover`. -/
  | handover (source : Reason)
  /-- The call of `rebindFn`. -/
  | rebind (gen : ℕ) (source : Reason)
  /-- `finishRebind` of `onHandover`. -/
  | refused (gen : ℕ) (source : Reason)
  /-- `finishRebind` of `rebindWatchdog`, and its `requestRecycle`. -/
  | finish (gen : ℕ) (reason : Option Reason)
  | heal (reason : Reason)
  /-- `activeFn` of `heal`. -/
  | healGap (reason : Reason) (inFlight : Bool)
  /-- The first section of `requestRecycle`. -/
  | recycle (reason : Reason)
  | recycling (pc : Recycle) (reason : Reason) (wantIP : String)
  | watchdog (gen : ℕ) (source : Reason)
  | watchSettle (gen : ℕ) (source : Reason) (wakeAt : ℕ)
  | watchLoop (gen : ℕ) (source : Reason) (deadline wakeAt : ℕ)
  | watchPaths (gen : ℕ) (source : Reason) (deadline : ℕ)
  | watchEnd (gen : ℕ) (source : Reason)
  /-- `watchSoftResume`. -/
  | softResume (source : Reason)
  | softWatch (source : Reason) (gen wakeAt : ℕ)
  | softPaths (source : Reason)
  /-- `pausedWatchdog`. -/
  | probeWait (gen i wakeAt : ℕ)
  | probing (gen i : ℕ)
  /-- `onWake`. -/
  | wake
  | wakeProbing (gen : ℕ)
  /-- The section of `probeSucceeded`. -/
  | probed (gen : ℕ) (source : Reason)
  | probeResumed (source : Reason) (need : Bool) (reason : Reason)
  /-- `waitForPath` when its time is up. -/
  | pathWait
  | pathPaths
  deriving DecidableEq, Repr

abbrev System := Pool Guard Thread
abbrev Out := Turn Guard Thread

/-- `!last.IsZero() && now.Sub(last) < gap`. -/
def within (last : Option ℕ) (now gap : ℕ) : Bool := last.any fun t => now - t < gap

/-- The watchdog of a rebind is out of date. -/
def Guard.stale (g : Guard) (gen : ℕ) : Bool := g.rebindGen ≠ gen || g.exiting || g.paused

def After.next : After → Thread
  | .done => .ended
  | .onHandover source => .handover source
  | .probeSucceeded source need reason => .probeResumed source need reason

namespace Guard

def applyEnginePause (g : Guard) (v : Bool) : Guard := { g with engine := g.engine.setPaused v }

def finishRebind (g : Guard) (gen : ℕ) : Guard :=
  if g.rebindGen = gen then { g with rebindInFlight := false } else g

/-- The guard after the dial, and the thread that it starts. -/
def noteDialResult (g : Guard) (ok : Bool) : Guard × Option Thread :=
  if ok then
    ({ g with
        dialFails := 0
        pendingRecycle := none
        recycles :=
          if 0 < g.recycles && !within g.lastRecycle g.now dataPathRecycleStable then 0
          else g.recycles }, none)
  else if g.paused || g.exiting then
    -- offline no dial counts, and the heal waits for `netback`
    ({ g with
        dialFails := 0
        pendingRecycle := some (g.pendingRecycle.getD .dialTimeouts) }, none)
  -- the dial may have started before the wake
  else if g.graceUntil.any fun t => g.now < t then (g, none)
  else
    ({ g with dialFails := g.dialFails + 1 },
      if dataPathDialFailThreshold ≤ g.dialFails + 1 then some (.heal .dialTimeouts) else none)

/-- The section of `onHostEvent("netlost")`. -/
def netlost (g : Guard) : Guard :=
  { g with paused := true, pauseGen := g.pauseGen + 1, dialFails := 0 }

def resumeFromPause (g : Guard) (source : Reason) (k : After) : Out :=
  if g.paused then
    ⟨{ g with
        paused := false
        pauseGen := g.pauseGen + 1
        pendingRecycle := none
        dialFails := 0
        graceUntil := some (g.now + dataPathWakeGrace) },
      .resumed source g.pendingRecycle.isSome (g.pendingRecycle.getD source) k, none⟩
  else ⟨g, k.next, none⟩

/-- The end of `resumeFromPause`.  For all but `netback` the caller heals. -/
def afterResume (g : Guard) (source : Reason) (need : Bool) (reason : Reason) (k : After) : Out :=
  ⟨g.applyEnginePause false, k.next,
    if source ≠ .netback then none
    else some (if need then .heal reason else .softResume source)⟩

def onHandover (g : Guard) (source : Reason) : Out :=
  if g.exiting then ⟨g, .ended, none⟩
  else if g.recycling then
    -- the recycle owns the sockets
    ⟨{ g with pendingHandover := some (g.pendingHandover.getD source) }, .ended, none⟩
  else if within g.lastRebind g.now dataPathRebindMinGap then ⟨g, .ended, none⟩
  else
    ⟨{ g with
        lastRebind := some g.now
        rebindGen := g.rebindGen + 1
        rebindInFlight := true
        dialFails := 0
        graceUntil := some (g.now + dataPathWakeGrace) },
      .rebind (g.rebindGen + 1) source, none⟩

/-- The start of `requestRecycle`. -/
def requestRecycle (g : Guard) (reason : Reason) : Out :=
  if g.exiting then ⟨g, .ended, none⟩
  -- the engine is not stopped offline
  else if g.paused then ⟨{ g with pendingRecycle := some reason }, .ended, none⟩
  else if g.recycling then ⟨g, .ended, none⟩
  else if within g.lastRecycle g.now dataPathRecycleMinGap then ⟨g, .ended, none⟩
  else if dataPathMaxRecycles ≤ g.recycles then ⟨{ g with exiting := true }, .ended, none⟩
  else
    ⟨{ g with recycling := true, lastRecycle := some g.now, recycles := g.recycles + 1 },
      .recycling .stopping reason g.tunIP, none⟩

/-- The last section of `requestRecycle`. -/
def finishRecycle (g : Guard) : Out :=
  let done := { g with recycling := false, dialFails := 0, pendingHandover := none }
  match g.pendingHandover with
  | none => ⟨done, .ended, none⟩
  -- the rebind window does not hold back what was noted
  | some source => ⟨{ done with lastRebind := none }, .resume source (.onHandover source), none⟩

def failRecycle (g : Guard) (reason : Reason) : Out :=
  if g.paused then
    ⟨{ g with recycling := false, pendingRecycle := some reason }, .ended, none⟩
  else ⟨{ g with exiting := true, recycling := false }, .ended, none⟩

def watchSoftResume (g : Guard) (source : Reason) : Out :=
  ⟨{ g with softResumeGen := g.softResumeGen + 1 },
    .softWatch source (g.softResumeGen + 1) (g.now + dataPathSoftResumeWatch), none⟩

def onWake (g : Guard) (hooks : Hooks) : Out :=
  if g.exiting then ⟨g, .ended, none⟩
  else
    let woken := { g with graceUntil := some (g.now + dataPathWakeGrace), dialFails := 0 }
    if g.paused then ⟨woken, if hooks.probeFn then .wakeProbing g.pauseGen else .ended, none⟩
    else ⟨woken, .ended, some (.softResume .wake)⟩

end Guard

variable (hooks : Hooks) (g : Guard) (r : Reply)

/-- The section of `heal`. -/
def Thread.ofHeal (reason : Reason) : Thread :=
  if reason.retried then .recycle reason
  else if g.exiting then .ended
  else if g.paused then .recycle reason
  else if !hooks.rebindFn then .recycle reason
  else if within g.lastRebind g.now dataPathRebindMinGap then .healGap reason g.rebindInFlight
  else .resume reason (.onHandover reason)

/-- The steps of a recycle that change nothing which is shared. -/
def Recycle.look (reason : Reason) (wantIP : String) : Recycle → Option Thread
  | .waiting =>
    -- a ready engine has published its gate
    if !r.ok then some (.recycling .failing reason wantIP)
    else if g.engine.isRunning then some (.recycling .checkIp reason wantIP)
    else none
  | .checkIp =>
    if wantIP ≠ "" ∧ r.ip ≠ "" ∧ r.ip ≠ wantIP then
      some (.recycling (if hooks.rebuildTunFn then .rebuilding r.ip else .ipChanged) reason wantIP)
    else some (.recycling .checkPort reason wantIP)
  | .rebuilding ip => some (.recycling (if r.ok then .rebuilt ip else .failing) reason wantIP)
  | .checkPort =>
    some (.recycling (if r.port < 0 ∨ 65535 < r.port then .failing else .finishing) reason wantIP)
  | _ => none

/-- The steps that change nothing which is shared: what the goroutine does next, and the
goroutine that it starts. -/
def Thread.look : Thread → Option (Thread × Option Thread)
  | .rebind gen source =>
    if hooks.rebindFn && r.ok then some (.ended, some (.watchdog gen source))
    else some (.refused gen source, none)
  | .heal reason => some (.ofHeal hooks g reason, none)
  | .healGap reason inFlight =>
    -- a rebind in flight has a watchdog that recycles by itself
    let paths := if hooks.activeFn then r.paths else -1
    if inFlight ∧ paths ≤ 0 then some (.ended, none) else some (.recycle (.rebindGap reason), none)
  | .recycling pc reason wantIP => (pc.look hooks g r reason wantIP).map fun t => (t, none)
  | .watchdog gen source =>
    if hooks.activeFn then some (.watchSettle gen source (g.now + dataPathRebindSettle), none)
    else some (.finish gen none, none)
  | .watchSettle gen source wakeAt =>
    if wakeAt ≤ g.now then some (.watchLoop gen source (g.now + dataPathRebindWait) g.now, none)
    else none
  | .watchLoop gen source deadline wakeAt =>
    if g.now < wakeAt then none
    else if deadline ≤ g.now then some (.watchEnd gen source, none)
    else if g.stale gen || g.recycling then some (.finish gen none, none)
    else some (.watchPaths gen source deadline, none)
  | .watchPaths gen source deadline =>
    -- a count that is not known is trusted
    if r.paths ≠ 0 then some (.finish gen none, none)
    else some (.watchLoop gen source deadline (g.now + dataPathRebindPoll), none)
  | .watchEnd gen source =>
    if g.stale gen then some (.finish gen none, none)
    else some (.finish gen (some (.rebindTimeout source)), none)
  | .softWatch source gen wakeAt =>
    if g.now < wakeAt then none
    else if g.exiting || g.paused || g.recycling || g.softResumeGen ≠ gen || !hooks.activeFn then
      some (.ended, none)
    else some (.softPaths source, none)
  | .softPaths source =>
    if r.paths ≠ 0 then some (.ended, none) else some (.ended, some (.recycle (.softDead source)))
  | .probeWait gen i wakeAt =>
    if g.now < wakeAt then none
    else if !g.paused || g.pauseGen ≠ gen || g.exiting then some (.ended, none)
    else some (.probing gen i, none)
  | .probing gen i =>
    if r.ok then some (.probed gen .probe, none)
    else some (.probeWait gen (i + 1) (g.now + probeDelay (i + 1)), none)
  | .wakeProbing gen => some (if r.ok then .probed gen .wake else .ended, none)
  | .probed gen source =>
    if !g.paused || g.pauseGen ≠ gen then some (.ended, none)
    else
      let need := g.pendingRecycle.isSome
      some (.resume source (.probeSucceeded source need (g.pendingRecycle.getD source)), none)
  | .probeResumed source need reason =>
    some (.ended, some (if need then .heal reason else .softResume source))
  | .pathWait => some (if g.paused || g.exiting then .ended else .pathPaths, none)
  | .pathPaths =>
    if hooks.activeFn && r.paths = 0 then some (.ended, some (.heal .zeroPaths))
    else some (.ended, none)
  | _ => none

/-- The next step of a goroutine. -/
def Thread.step : Thread → Option Out
  | .netlost gen =>
    some ⟨g.applyEnginePause true, .ended,
      if hooks.probeFn then some (.probeWait gen 0 (g.now + probeDelay 0)) else none⟩
  | .resume source k => some (g.resumeFromPause source k)
  | .resumed source need reason k => some (g.afterResume source need reason k)
  | .handover source => some (g.onHandover source)
  | .refused gen source => some ⟨g.finishRebind gen, .ended, some (.recycle source)⟩
  | .finish gen reason => some ⟨g.finishRebind gen, reason.elim .ended .recycle, none⟩
  | .recycle reason => some (g.requestRecycle reason)
  | .recycling .stopping reason wantIP =>
    some ⟨{ g with engine := .stopped },
      .recycling (.settling (g.now + dataPathEngineSettle)) reason wantIP, none⟩
  | .recycling (.settling wakeAt) reason wantIP =>
    if g.now < wakeAt then none
    else if r.ok then some ⟨{ g with engine := .starting }, .recycling .waiting reason wantIP, none⟩
    else some ⟨g, .recycling .failing reason wantIP, none⟩
  | .recycling .ipChanged _ _ => some ⟨{ g with exiting := true, recycling := false }, .ended, none⟩
  | .recycling (.rebuilt ip) reason wantIP =>
    some ⟨{ g with tunIP := ip }, .recycling .checkPort reason wantIP, none⟩
  | .recycling .finishing _ _ => some g.finishRecycle
  | .recycling .failing reason _ => some (g.failRecycle reason)
  | .softResume source => some (g.watchSoftResume source)
  | .wake => some (g.onWake hooks)
  | t => (t.look hooks g r).map fun n => ⟨g, n.1, n.2⟩

/-- Who says that the network is back or has changed. -/
inductive Notice where
  | netback
  | stall
  | handover
  | netchange
  deriving DecidableEq, Repr

def Notice.thread : Notice → Thread
  | .netback => .resume .netback .done
  | .stall => .resume .stall (.onHandover .stall)
  | .handover => .resume .handover (.onHandover .handover)
  | .netchange => .resume .netchange (.onHandover .netchange)

inductive Event where
  /-- Time passes. -/
  | tick (d : ℕ)
  /-- A dial succeeds or times out. -/
  | dial (ok : Bool)
  | netlost
  | notice (n : Notice)
  | wake
  /-- `waitForPath` has waited for `dataPathPathWaitMax`. -/
  | connect
  /-- The next step of goroutine `i`. -/
  | go (i : ℕ) (r : Reply)
  /-- The starting engine publishes its gate. -/
  | publish
  /-- The engine gives up. -/
  | die
  deriving DecidableEq, Repr

def System.step (s : System) : Event → Option System
  | .tick d => some (s.put { s.shared with now := s.shared.now + d } none)
  | .dial ok => some (s.put (s.shared.noteDialResult ok).1 (s.shared.noteDialResult ok).2)
  | .netlost => some (s.put s.shared.netlost (some (.netlost (s.shared.pauseGen + 1))))
  | .notice n => some (s.put s.shared (some n.thread))
  | .wake => some (s.put s.shared (some .wake))
  | .connect => some (s.put s.shared (some .pathWait))
  | .go i r =>
    s.threads[i]?.bind fun t => (t.step hooks s.shared r).map fun out => s.after i out
  | .publish =>
    if s.shared.engine = .starting then some (s.put { s.shared with engine := .running false } none)
    else none
  | .die =>
    if s.shared.engine = .stopped then none
    else some (s.put { s.shared with engine := .stopped } none)

/-- `newDataPathGuard`; the engine runs. -/
def System.new (tunIP : String) (now : ℕ) : System :=
  ⟨{ tunIP, now
     dialFails := 0
     recycles := 0
     lastRecycle := none
     recycling := false
     paused := false
     pauseGen := 0
     pendingRecycle := none
     graceUntil := none
     lastRebind := none
     rebindGen := 0
     rebindInFlight := false
     pendingHandover := none
     softResumeGen := 0
     exiting := false
     engine := .running false }, []⟩

/-! ### What a step can do -/

/-- The steps that change nothing which is shared. -/
inductive Look : Thread → Thread → Option Thread → Prop where
  | rebound {gen : ℕ} {source : Reason} :
      Look (.rebind gen source) .ended (some (.watchdog gen source))
  | refuse {gen : ℕ} {source : Reason} (h : (hooks.rebindFn && r.ok) = false) :
      Look (.rebind gen source) (.refused gen source) none
  | healRetried {reason : Reason} (h : reason.retried) : Look (.heal reason) (.recycle reason) none
  | healLate {reason : Reason} (h : reason.retried = false) (hexit : g.exiting) :
      Look (.heal reason) .ended none
  | healRecycle {reason : Reason} (hexit : g.exiting = false)
      (h : g.paused ∨ hooks.rebindFn = false) : Look (.heal reason) (.recycle reason) none
  | healGap {reason : Reason} (hexit : g.exiting = false) :
      Look (.heal reason) (.healGap reason g.rebindInFlight) none
  | healSoft {reason : Reason} (hexit : g.exiting = false) (hpaused : g.paused = false) :
      Look (.heal reason) (.resume reason (.onHandover reason)) none
  | gapWait {reason : Reason} (h : (if hooks.activeFn then r.paths else -1) ≤ 0) :
      Look (.healGap reason true) .ended none
  | gapRecycle {reason : Reason} {inFlight : Bool}
      (h : inFlight → 0 < if hooks.activeFn then r.paths else -1) :
      Look (.healGap reason inFlight) (.recycle (.rebindGap reason)) none
  | recycling {pc pc' : Recycle} {reason : Reason} {wantIP : String}
      (h : pc.look hooks g r reason wantIP = some (.recycling pc' reason wantIP)) :
      Look (.recycling pc reason wantIP) (.recycling pc' reason wantIP) none
  | watchSettle {gen : ℕ} {source : Reason} (h : hooks.activeFn) :
      Look (.watchdog gen source) (.watchSettle gen source (g.now + dataPathRebindSettle)) none
  | watchBlind {gen : ℕ} {source : Reason} (h : hooks.activeFn = false) :
      Look (.watchdog gen source) (.finish gen none) none
  | watchStart {gen wakeAt : ℕ} {source : Reason} :
      Look (.watchSettle gen source wakeAt)
        (.watchLoop gen source (g.now + dataPathRebindWait) g.now) none
  | watchExpired {gen deadline wakeAt : ℕ} {source : Reason} (htime : deadline ≤ g.now) :
      Look (.watchLoop gen source deadline wakeAt) (.watchEnd gen source) none
  | watchStale {gen deadline wakeAt : ℕ} {source : Reason} (htime : g.now < deadline)
      (h : g.stale gen || g.recycling) :
      Look (.watchLoop gen source deadline wakeAt) (.finish gen none) none
  | watchPaths {gen deadline wakeAt : ℕ} {source : Reason} (hwake : wakeAt ≤ g.now)
      (htime : g.now < deadline) (h : (g.stale gen || g.recycling) = false) :
      Look (.watchLoop gen source deadline wakeAt) (.watchPaths gen source deadline) none
  | watchUp {gen deadline : ℕ} {source : Reason} (h : r.paths ≠ 0) :
      Look (.watchPaths gen source deadline) (.finish gen none) none
  | watchAgain {gen deadline : ℕ} {source : Reason} (h : r.paths = 0) :
      Look (.watchPaths gen source deadline)
        (.watchLoop gen source deadline (g.now + dataPathRebindPoll)) none
  | watchEndStale {gen : ℕ} {source : Reason} (h : g.stale gen) :
      Look (.watchEnd gen source) (.finish gen none) none
  | watchEnd {gen : ℕ} {source : Reason} (h : g.stale gen = false) :
      Look (.watchEnd gen source) (.finish gen (some (.rebindTimeout source))) none
  | softStale {gen wakeAt : ℕ} {source : Reason}
      (h : g.exiting || g.paused || g.recycling || g.softResumeGen ≠ gen || !hooks.activeFn) :
      Look (.softWatch source gen wakeAt) .ended none
  | softPaths {gen wakeAt : ℕ} {source : Reason}
      (h : (g.exiting || g.paused || g.recycling || g.softResumeGen ≠ gen || !hooks.activeFn) =
        false) :
      Look (.softWatch source gen wakeAt) (.softPaths source) none
  | softUp {source : Reason} (h : r.paths ≠ 0) : Look (.softPaths source) .ended none
  | softDead {source : Reason} (h : r.paths = 0) :
      Look (.softPaths source) .ended (some (.recycle (.softDead source)))
  | probeStale {gen i wakeAt : ℕ} : Look (.probeWait gen i wakeAt) .ended none
  | probe {gen i wakeAt : ℕ} (hpaused : g.paused) (hgen : g.pauseGen = gen) :
      Look (.probeWait gen i wakeAt) (.probing gen i) none
  | probeOk {gen i : ℕ} : Look (.probing gen i) (.probed gen .probe) none
  | probeFailed {gen i : ℕ} :
      Look (.probing gen i) (.probeWait gen (i + 1) (g.now + probeDelay (i + 1))) none
  | wakeOk {gen : ℕ} : Look (.wakeProbing gen) (.probed gen .wake) none
  | wakeFailed {gen : ℕ} : Look (.wakeProbing gen) .ended none
  | probedStale {gen : ℕ} {source : Reason} : Look (.probed gen source) .ended none
  | probed {gen : ℕ} {source : Reason} (hpaused : g.paused) (hgen : g.pauseGen = gen) :
      Look (.probed gen source) (.resume source (.probeSucceeded source g.pendingRecycle.isSome
        (g.pendingRecycle.getD source))) none
  | probeHeal {source reason : Reason} :
      Look (.probeResumed source true reason) .ended (some (.heal reason))
  | probeSoft {source reason : Reason} :
      Look (.probeResumed source false reason) .ended (some (.softResume source))
  | pathRejected : Look .pathWait .ended none
  | pathWait : Look .pathWait .pathPaths none
  | pathDead : Look .pathPaths .ended (some (.heal .zeroPaths))
  | pathUp : Look .pathPaths .ended none

/-- The steps of a goroutine. -/
inductive Act : Thread → Out → Prop where
  | look {t next : Thread} {started : Option Thread} (h : Look hooks g r t next started) :
      Act t ⟨g, next, started⟩
  | netlost {gen : ℕ} :
      Act (.netlost gen) ⟨g.applyEnginePause true, .ended,
        if hooks.probeFn then some (.probeWait gen 0 (g.now + probeDelay 0)) else none⟩
  | pass {source : Reason} {k : After} (h : g.paused = false) :
      Act (.resume source k) ⟨g, k.next, none⟩
  | unpause {source : Reason} {k : After} (h : g.paused) :
      Act (.resume source k)
        ⟨{ g with
            paused := false
            pauseGen := g.pauseGen + 1
            pendingRecycle := none
            dialFails := 0
            graceUntil := some (g.now + dataPathWakeGrace) },
          .resumed source g.pendingRecycle.isSome (g.pendingRecycle.getD source) k, none⟩
  | resumed {source reason : Reason} {need : Bool} {k : After} :
      Act (.resumed source need reason k) (g.afterResume source need reason k)
  | handoverLate {source : Reason} (h : g.exiting) : Act (.handover source) ⟨g, .ended, none⟩
  | handoverNoted {source : Reason} (h : g.exiting = false) (hrec : g.recycling) :
      Act (.handover source)
        ⟨{ g with pendingHandover := some (g.pendingHandover.getD source) }, .ended, none⟩
  | handoverGap {source : Reason} (h : g.exiting = false) (hrec : g.recycling = false)
      (hgap : within g.lastRebind g.now dataPathRebindMinGap) :
      Act (.handover source) ⟨g, .ended, none⟩
  | handoverRebind {source : Reason} (h : g.exiting = false) (hrec : g.recycling = false)
      (hgap : within g.lastRebind g.now dataPathRebindMinGap = false) :
      Act (.handover source)
        ⟨{ g with
            lastRebind := some g.now
            rebindGen := g.rebindGen + 1
            rebindInFlight := true
            dialFails := 0
            graceUntil := some (g.now + dataPathWakeGrace) },
          .rebind (g.rebindGen + 1) source, none⟩
  | refused {gen : ℕ} {source : Reason} :
      Act (.refused gen source) ⟨g.finishRebind gen, .ended, some (.recycle source)⟩
  | finish {gen : ℕ} {reason : Option Reason} :
      Act (.finish gen reason) ⟨g.finishRebind gen, reason.elim .ended .recycle, none⟩
  | recycleLate {reason : Reason} (h : g.exiting) : Act (.recycle reason) ⟨g, .ended, none⟩
  | recyclePaused {reason : Reason} (h : g.exiting = false) (hpaused : g.paused) :
      Act (.recycle reason) ⟨{ g with pendingRecycle := some reason }, .ended, none⟩
  | recycleBusy {reason : Reason} (h : g.exiting = false) (hpaused : g.paused = false)
      (hbusy : g.recycling ∨ within g.lastRecycle g.now dataPathRecycleMinGap) :
      Act (.recycle reason) ⟨g, .ended, none⟩
  | recycleExhausted {reason : Reason} (h : g.exiting = false) (hpaused : g.paused = false)
      (hrec : g.recycling = false) (hmax : dataPathMaxRecycles ≤ g.recycles) :
      Act (.recycle reason) ⟨{ g with exiting := true }, .ended, none⟩
  | recycleStart {reason : Reason} (h : g.exiting = false) (hpaused : g.paused = false)
      (hrec : g.recycling = false)
      (hgap : within g.lastRecycle g.now dataPathRecycleMinGap = false)
      (hmax : g.recycles < dataPathMaxRecycles) :
      Act (.recycle reason)
        ⟨{ g with recycling := true, lastRecycle := some g.now, recycles := g.recycles + 1 },
          .recycling .stopping reason g.tunIP, none⟩
  | stopping {reason : Reason} {wantIP : String} :
      Act (.recycling .stopping reason wantIP) ⟨{ g with engine := .stopped },
        .recycling (.settling (g.now + dataPathEngineSettle)) reason wantIP, none⟩
  | engineStarted {wakeAt : ℕ} {reason : Reason} {wantIP : String} (h : wakeAt ≤ g.now)
      (hok : r.ok) :
      Act (.recycling (.settling wakeAt) reason wantIP)
        ⟨{ g with engine := .starting }, .recycling .waiting reason wantIP, none⟩
  | engineFailed {wakeAt : ℕ} {reason : Reason} {wantIP : String} (h : wakeAt ≤ g.now)
      (hok : r.ok = false) :
      Act (.recycling (.settling wakeAt) reason wantIP)
        ⟨g, .recycling .failing reason wantIP, none⟩
  | ipChanged {reason : Reason} {wantIP : String} :
      Act (.recycling .ipChanged reason wantIP)
        ⟨{ g with exiting := true, recycling := false }, .ended, none⟩
  | rebuilt {ip : String} {reason : Reason} {wantIP : String} :
      Act (.recycling (.rebuilt ip) reason wantIP)
        ⟨{ g with tunIP := ip }, .recycling .checkPort reason wantIP, none⟩
  | finishing {reason : Reason} {wantIP : String} (h : g.pendingHandover = none) :
      Act (.recycling .finishing reason wantIP)
        ⟨{ g with recycling := false, dialFails := 0, pendingHandover := none }, .ended, none⟩
  | replay {reason source : Reason} {wantIP : String} (h : g.pendingHandover = some source) :
      Act (.recycling .finishing reason wantIP)
        ⟨{ g with recycling := false, dialFails := 0, pendingHandover := none, lastRebind := none },
          .resume source (.onHandover source), none⟩
  | failOffline {reason : Reason} {wantIP : String} (h : g.paused) :
      Act (.recycling .failing reason wantIP)
        ⟨{ g with recycling := false, pendingRecycle := some reason }, .ended, none⟩
  | failOnline {reason : Reason} {wantIP : String} (h : g.paused = false) :
      Act (.recycling .failing reason wantIP)
        ⟨{ g with exiting := true, recycling := false }, .ended, none⟩
  | softResume {source : Reason} : Act (.softResume source) (g.watchSoftResume source)
  | wakeLate (h : g.exiting) : Act .wake ⟨g, .ended, none⟩
  | wakePaused (h : g.exiting = false) (hpaused : g.paused) :
      Act .wake ⟨{ g with graceUntil := some (g.now + dataPathWakeGrace), dialFails := 0 },
        if hooks.probeFn then .wakeProbing g.pauseGen else .ended, none⟩
  | wakeOnline (h : g.exiting = false) (hpaused : g.paused = false) :
      Act .wake ⟨{ g with graceUntil := some (g.now + dataPathWakeGrace), dialFails := 0 },
        .ended, some (.softResume .wake)⟩

variable {hooks g r}

attribute [local simp] Thread.look Thread.step

theorem look_of_heal {reason : Reason} :
    Look hooks g r (.heal reason) (.ofHeal hooks g reason) none := by
  rw [Thread.ofHeal]
  split_ifs with hretried hexit hpaused hrebind hgap
  · exact .healRetried hretried
  · exact .healLate (Bool.eq_false_iff.mpr hretried) hexit
  · exact .healRecycle (Bool.eq_false_iff.mpr hexit) (.inl hpaused)
  · exact .healRecycle (Bool.eq_false_iff.mpr hexit) (.inr ((Bool.not_eq_true' _).mp hrebind))
  · exact .healGap (Bool.eq_false_iff.mpr hexit)
  · exact .healSoft (Bool.eq_false_iff.mpr hexit) (Bool.eq_false_iff.mpr hpaused)

theorem look_of_recycling {pc : Recycle} {reason : Reason} {wantIP : String} {next : Thread}
    (h : pc.look hooks g r reason wantIP = some next) :
    Look hooks g r (.recycling pc reason wantIP) next none := by
  have hnext : ∃ pc', next = .recycling pc' reason wantIP := by
    cases pc with
    | waiting | checkIp =>
      rw [Recycle.look] at h
      split_ifs at h
      all_goals exact ⟨_, (Option.some.inj h).symm⟩
    | rebuilding | checkPort => exact ⟨_, (Option.some.inj h).symm⟩
    | stopping | settling | ipChanged | rebuilt | finishing | failing => exact nomatch h
  obtain ⟨pc', rfl⟩ := hnext
  exact .recycling h

section

variable {reason source : Reason} {inFlight : Bool} {gen i deadline wakeAt : ℕ} {next : Thread}
  {started : Option Thread}

theorem look_of_healGap (h : (Thread.healGap reason inFlight).look hooks g r = some (next, started)) :
    Look hooks g r (.healGap reason inFlight) next started := by
  by_cases hwait : inFlight ∧ (if hooks.activeFn then r.paths else -1) ≤ 0
  · simp [hwait] at h
    obtain ⟨rfl, rfl⟩ := h
    obtain ⟨rfl, hpaths⟩ := hwait
    exact .gapWait hpaths
  · simp only [Thread.look, if_neg hwait] at h
    cases h
    exact .gapRecycle fun hflight => Int.lt_of_not_ge fun hpaths => hwait ⟨hflight, hpaths⟩

theorem look_of_watchLoop
    (h : (Thread.watchLoop gen source deadline wakeAt).look hooks g r = some (next, started)) :
    Look hooks g r (.watchLoop gen source deadline wakeAt) next started := by
  rw [Thread.look] at h
  split_ifs at h with hwake htime hstale
  · cases h
    exact .watchExpired htime
  · cases h
    exact .watchStale (Nat.lt_of_not_le htime) hstale
  · cases h
    exact .watchPaths (Nat.le_of_not_lt hwake) (Nat.lt_of_not_le htime)
      (Bool.eq_false_iff.mpr hstale)

theorem look_of_probeWait
    (h : (Thread.probeWait gen i wakeAt).look hooks g r = some (next, started)) :
    Look hooks g r (.probeWait gen i wakeAt) next started := by
  rw [Thread.look] at h
  split_ifs at h with _ hstale
  · cases h
    exact .probeStale
  · cases h
    simp only [Bool.or_eq_true, not_or, Bool.not_eq_true', decide_eq_true_eq, not_not] at hstale
    exact .probe (Bool.not_eq_false _ ▸ hstale.1.1) hstale.1.2

theorem look_of_probed (h : (Thread.probed gen source).look hooks g r = some (next, started)) :
    Look hooks g r (.probed gen source) next started := by
  rw [Thread.look] at h
  split_ifs at h with hstale
  · cases h
    exact .probedStale
  · cases h
    simp only [Bool.or_eq_true, not_or, Bool.not_eq_true', decide_eq_true_eq, not_not] at hstale
    exact .probed (Bool.not_eq_false _ ▸ hstale.1) hstale.2

end

theorem look_of_step {t next : Thread} {started : Option Thread}
    (h : t.look hooks g r = some (next, started)) : Look hooks g r t next started := by
  cases t with
  | rebind gen source =>
    rw [Thread.look] at h
    split_ifs at h with hok
    · cases h
      exact .rebound
    · cases h
      exact .refuse (Bool.eq_false_iff.mpr hok)
  | heal reason =>
    cases h
    exact look_of_heal
  | healGap reason inFlight => exact look_of_healGap h
  | recycling pc reason wantIP =>
    obtain ⟨u, hpc, hu⟩ := Option.map_eq_some_iff.mp h
    cases hu
    exact look_of_recycling hpc
  | watchdog gen source =>
    rw [Thread.look] at h
    split_ifs at h with hactive
    · cases h
      exact .watchSettle hactive
    · cases h
      exact .watchBlind (Bool.eq_false_iff.mpr hactive)
  | watchSettle gen source wakeAt =>
    rw [Thread.look] at h
    split_ifs at h
    cases h
    exact .watchStart
  | watchLoop gen source deadline wakeAt => exact look_of_watchLoop h
  | watchPaths gen source deadline =>
    rw [Thread.look] at h
    split_ifs at h with hpaths
    · cases h
      exact .watchUp hpaths
    · cases h
      exact .watchAgain (not_not.mp hpaths)
  | watchEnd gen source =>
    rw [Thread.look] at h
    split_ifs at h with hstale
    · cases h
      exact .watchEndStale hstale
    · cases h
      exact .watchEnd (Bool.eq_false_iff.mpr hstale)
  | softWatch source gen wakeAt =>
    rw [Thread.look] at h
    split_ifs at h with _ hstale
    · cases h
      exact .softStale hstale
    · cases h
      exact .softPaths (Bool.eq_false_iff.mpr hstale)
  | softPaths source =>
    rw [Thread.look] at h
    split_ifs at h with hpaths
    · cases h
      exact .softUp hpaths
    · cases h
      exact .softDead (not_not.mp hpaths)
  | probeWait gen i wakeAt => exact look_of_probeWait h
  | probing gen i =>
    rw [Thread.look] at h
    split_ifs at h
    · cases h
      exact .probeOk
    · cases h
      exact .probeFailed
  | wakeProbing gen =>
    rw [Thread.look] at h
    split_ifs at h
    · cases h
      exact .wakeOk
    · cases h
      exact .wakeFailed
  | probed gen source => exact look_of_probed h
  | probeResumed source need reason =>
    cases need with
    | true =>
      cases h
      exact .probeHeal
    | false =>
      cases h
      exact .probeSoft
  | pathWait =>
    rw [Thread.look] at h
    split_ifs at h
    · cases h
      exact .pathRejected
    · cases h
      exact .pathWait
  | pathPaths =>
    rw [Thread.look] at h
    split_ifs at h
    · cases h
      exact .pathDead
    · cases h
      exact .pathUp
  | ended | netlost | resume | resumed | handover | refused | finish | recycle | softResume
  | wake => exact nomatch h

theorem act_of_look {t : Thread} {out : Out}
    (h : (t.look hooks g r).map (fun n => (⟨g, n.1, n.2⟩ : Out)) = some out) :
    Act hooks g r t out := by
  obtain ⟨⟨next, started⟩, hlook, rfl⟩ := Option.map_eq_some_iff.mp h
  exact .look (look_of_step hlook)

theorem act_of_requestRecycle {reason : Reason} :
    Act hooks g r (.recycle reason) (g.requestRecycle reason) := by
  rw [Guard.requestRecycle]
  split_ifs with hexit hpaused hrec hgap hmax
  · exact .recycleLate hexit
  · exact .recyclePaused (Bool.eq_false_iff.mpr hexit) hpaused
  · exact .recycleBusy (Bool.eq_false_iff.mpr hexit) (Bool.eq_false_iff.mpr hpaused) (.inl hrec)
  · exact .recycleBusy (Bool.eq_false_iff.mpr hexit) (Bool.eq_false_iff.mpr hpaused) (.inr hgap)
  · exact .recycleExhausted (Bool.eq_false_iff.mpr hexit) (Bool.eq_false_iff.mpr hpaused)
      (Bool.eq_false_iff.mpr hrec) hmax
  · exact .recycleStart (Bool.eq_false_iff.mpr hexit) (Bool.eq_false_iff.mpr hpaused)
      (Bool.eq_false_iff.mpr hrec) (Bool.eq_false_iff.mpr hgap) (Nat.lt_of_not_le hmax)

theorem act_of_onHandover {source : Reason} :
    Act hooks g r (.handover source) (g.onHandover source) := by
  rw [Guard.onHandover]
  split_ifs with hexit hrec hgap
  · exact .handoverLate hexit
  · exact .handoverNoted (Bool.eq_false_iff.mpr hexit) hrec
  · exact .handoverGap (Bool.eq_false_iff.mpr hexit) (Bool.eq_false_iff.mpr hrec) hgap
  · exact .handoverRebind (Bool.eq_false_iff.mpr hexit) (Bool.eq_false_iff.mpr hrec)
      (Bool.eq_false_iff.mpr hgap)

theorem act_of_onWake : Act hooks g r .wake (g.onWake hooks) := by
  rw [Guard.onWake]
  by_cases hexit : g.exiting
  · rw [if_pos hexit]
    exact .wakeLate hexit
  · rw [if_neg hexit]
    by_cases hpaused : g.paused
    · simp only [if_pos hpaused]
      exact .wakePaused (Bool.eq_false_iff.mpr hexit) hpaused
    · simp only [if_neg hpaused]
      exact .wakeOnline (Bool.eq_false_iff.mpr hexit) (Bool.eq_false_iff.mpr hpaused)

theorem act_of_recycling {pc : Recycle} {reason : Reason} {wantIP : String} {out : Out}
    (h : (Thread.recycling pc reason wantIP).step hooks g r = some out) :
    Act hooks g r (.recycling pc reason wantIP) out := by
  cases pc with
  | stopping => exact Option.some.inj h ▸ .stopping
  | settling wakeAt =>
    rw [Thread.step] at h
    split_ifs at h with hsleep hok
    · exact Option.some.inj h ▸ .engineStarted (Nat.le_of_not_lt hsleep) hok
    · exact Option.some.inj h ▸
        .engineFailed (Nat.le_of_not_lt hsleep) (Bool.eq_false_iff.mpr hok)
  | ipChanged => exact Option.some.inj h ▸ .ipChanged
  | rebuilt ip => exact Option.some.inj h ▸ .rebuilt
  | finishing =>
    rw [Thread.step, Guard.finishRecycle] at h
    rcases hnoted : g.pendingHandover with _ | source
    · rw [hnoted] at h
      exact Option.some.inj h ▸ .finishing hnoted
    · rw [hnoted] at h
      exact Option.some.inj h ▸ .replay hnoted
  | failing =>
    rw [Thread.step, Guard.failRecycle] at h
    split_ifs at h with hpaused
    · exact Option.some.inj h ▸ .failOffline hpaused
    · exact Option.some.inj h ▸ .failOnline (Bool.eq_false_iff.mpr hpaused)
  | waiting | checkIp | rebuilding | checkPort => exact act_of_look h

theorem step_act {t : Thread} {out : Out} (h : t.step hooks g r = some out) :
    Act hooks g r t out := by
  cases t with
  | netlost gen => exact Option.some.inj h ▸ .netlost
  | resume source k =>
    rw [Thread.step, Guard.resumeFromPause] at h
    split_ifs at h with hpaused
    · exact Option.some.inj h ▸ .unpause hpaused
    · exact Option.some.inj h ▸ .pass (Bool.eq_false_iff.mpr hpaused)
  | resumed source need reason k => exact Option.some.inj h ▸ .resumed
  | handover source => exact Option.some.inj h ▸ act_of_onHandover
  | refused gen source => exact Option.some.inj h ▸ .refused
  | finish gen reason => exact Option.some.inj h ▸ .finish
  | recycle reason => exact Option.some.inj h ▸ act_of_requestRecycle
  | recycling pc reason wantIP => exact act_of_recycling h
  | softResume source => exact Option.some.inj h ▸ .softResume
  | wake => exact Option.some.inj h ▸ act_of_onWake
  | ended | rebind | heal | healGap | watchdog | watchSettle | watchLoop | watchPaths | watchEnd
  | softWatch | softPaths | probeWait | probing | wakeProbing | probed | probeResumed | pathWait
  | pathPaths => exact act_of_look h

theorem Guard.finishRebind_eq (g : Guard) (gen : ℕ) :
    ∃ b, g.finishRebind gen = { g with rebindInFlight := b } := by
  rw [Guard.finishRebind]
  split_ifs
  · exact ⟨false, rfl⟩
  · exact ⟨g.rebindInFlight, rfl⟩

/-- Only time moves the clock. -/
theorem Act.now {t : Thread} {out : Out} (h : Act hooks g r t out) : out.shared.now = g.now := by
  cases h with
  | @refused gen | @finish gen =>
    obtain ⟨b, hb⟩ := g.finishRebind_eq gen
    rw [hb]
  | _ => rfl

/-- The goroutines that a turn starts. -/
inductive Forked : Thread → Prop where
  | watchdog {gen : ℕ} {source : Reason} : Forked (.watchdog gen source)
  | recycle {reason : Reason} : Forked (.recycle reason)
  | heal {reason : Reason} : Forked (.heal reason)
  | softResume {source : Reason} : Forked (.softResume source)
  | probeWait {gen i wakeAt : ℕ} : Forked (.probeWait gen i wakeAt)

theorem Look.forked {t next u : Thread} {started : Option Thread}
    (h : Look hooks g r t next started) (hu : started = some u) : Forked u := by
  cases h with
  | rebound => exact Option.some.inj hu ▸ .watchdog
  | softDead => exact Option.some.inj hu ▸ .recycle
  | probeHeal | pathDead => exact Option.some.inj hu ▸ .heal
  | probeSoft => exact Option.some.inj hu ▸ .softResume
  | _ => exact nomatch hu

theorem Act.forked {t u : Thread} {out : Out} (h : Act hooks g r t out)
    (hu : out.started = some u) : Forked u := by
  cases h with
  | look h => exact h.forked hu
  | netlost =>
    replace hu : (if hooks.probeFn then some _ else none) = some u := hu
    split_ifs at hu
    exact Option.some.inj hu ▸ .probeWait
  | resumed =>
    rw [Guard.afterResume] at hu
    split_ifs at hu
    · exact Option.some.inj hu ▸ .heal
    · exact Option.some.inj hu ▸ .softResume
  | refused => exact Option.some.inj hu ▸ .recycle
  | wakeOnline => exact Option.some.inj hu ▸ .softResume
  | _ => exact nomatch hu

/-- What a dial does to the guard. -/
theorem Guard.noteDialResult_eq (g : Guard) (ok : Bool) :
    ∃ dialFails recycles pendingRecycle,
      (g.noteDialResult ok).1 = { g with dialFails, recycles, pendingRecycle } ∧
        (pendingRecycle = none ∨ pendingRecycle = some (g.pendingRecycle.getD .dialTimeouts) ∨
          pendingRecycle = g.pendingRecycle) := by
  rcases ok with _ | _
  · rw [Guard.noteDialResult, if_neg Bool.false_ne_true]
    split_ifs
    · exact ⟨_, _, _, rfl, .inr (.inl rfl)⟩
    · exact ⟨_, _, _, rfl, .inr (.inr rfl)⟩
    · exact ⟨_, _, _, rfl, .inr (.inr rfl)⟩
    · exact ⟨_, _, _, rfl, .inr (.inr rfl)⟩
  · exact ⟨_, _, _, rfl, .inl rfl⟩

/-- The only goroutine that a dial starts. -/
theorem noteDialResult_started {g : Guard} {ok : Bool} {u : Thread}
    (h : (g.noteDialResult ok).2 = some u) : u = .heal .dialTimeouts := by
  rw [Guard.noteDialResult] at h
  split_ifs at h with hok hoff hgrace
  exact (Option.some.inj h).symm

/-- The steps of everybody. -/
inductive Step (hooks : Hooks) (s : System) : Event → System → Prop where
  | tick {d : ℕ} : Step hooks s (.tick d) (s.put { s.shared with now := s.shared.now + d } none)
  | dial {ok : Bool} :
      Step hooks s (.dial ok) (s.put (s.shared.noteDialResult ok).1 (s.shared.noteDialResult ok).2)
  | netlost :
      Step hooks s .netlost (s.put s.shared.netlost (some (.netlost (s.shared.pauseGen + 1))))
  | notice {n : Notice} : Step hooks s (.notice n) (s.put s.shared (some n.thread))
  | wake : Step hooks s .wake (s.put s.shared (some .wake))
  | connect : Step hooks s .connect (s.put s.shared (some .pathWait))
  | go {i : ℕ} {r : Reply} {t : Thread} {out : Out} (ht : s.threads[i]? = some t)
      (hout : t.step hooks s.shared r = some out) : Step hooks s (.go i r) (s.after i out)
  | publish (h : s.shared.engine = .starting) :
      Step hooks s .publish (s.put { s.shared with engine := .running false } none)
  | die : Step hooks s .die (s.put { s.shared with engine := .stopped } none)

theorem step_cases {s s' : System} {ev : Event} (h : System.step hooks s ev = some s') :
    Step hooks s ev s' := by
  cases ev with
  | tick d => exact Option.some.inj h ▸ .tick
  | dial ok => exact Option.some.inj h ▸ .dial
  | netlost => exact Option.some.inj h ▸ .netlost
  | notice n => exact Option.some.inj h ▸ .notice
  | wake => exact Option.some.inj h ▸ .wake
  | connect => exact Option.some.inj h ▸ .connect
  | go i r =>
    obtain ⟨t, ht, h⟩ := Option.bind_eq_some_iff.mp h
    obtain ⟨out, hout, rfl⟩ := Option.map_eq_some_iff.mp h
    exact .go ht hout
  | publish =>
    rw [System.step] at h
    split_ifs at h with hstarting
    exact Option.some.inj h ▸ .publish hstarting
  | die =>
    rw [System.step] at h
    split_ifs at h
    exact Option.some.inj h ▸ .die

end Csqtt.DataPath
