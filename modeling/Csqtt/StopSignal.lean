/-
The stop signal of the host, and the goodbyes of the engines.

`signal_stop_disconnect` raises a flag of the process and waits for at most 800 ms.  The
main loop of an engine takes the flag down and requests a DISCONNECT; so does each session
whose engine is cancelled.  Engines are numbered in the order of their starts, and what
`run` does before and after its main loop is left out, as is when its workers start a
session.

A thread is a call of the host, an engine's `run` or a session, with what it does next,
and a step is one access to what is shared, or one poll.  Whoever waits for the flag or for
a completed request is woken by the store, so a wait is a step that is open from then on.
A writer has room for its commands, since no more than one announcement and one DISCONNECT
wait in its queue; what it does with a command is up to the run.  Times are milliseconds,
counters do not run out.
-/
import Csqtt.ShutdownCoordinator
import Csqtt.ThreadPool
import Csqtt.TransitionRun
import Mathlib.Logic.Function.Basic

namespace Csqtt.Shutdown

/-- How long `signal_stop_disconnect` waits. -/
def stopWait : ℕ := 800

/-- How long a request waits for the one of the leader. -/
def followerWait : ℕ := 2000

/-- The sessions of an engine, with its coordinator. -/
structure Sessions where
  shutdown : ShutdownCoordinator
  /-- Whose `ShutdownRegistration` has not been dropped. -/
  registered : List ℕ
  /-- Whose writer has dropped its end of the commands. -/
  closed : List ℕ
  deriving DecidableEq

structure Process where
  /-- `STOP_FLAG`. -/
  stopFlag : Bool
  /-- `STOP_DONE`. -/
  stopDone : Bool
  nextIncarnationId : ℕ
  now : ℕ
  cancelled : ℕ → Bool
  sessions : ℕ → Sessions
  started : ℕ

/-- Who has called `request_disconnect`. -/
inductive Caller where
  | main
  | session (id : ℕ)
  deriving DecidableEq

/-- What a call of `request_disconnect` does next. -/
inductive Request where
  /-- Its first section. -/
  | enter
  /-- `wait_until_completed` of a call that does not lead. -/
  | following (limit : ℕ)
  /-- `control_streams`. -/
  | leading (deadline : ℕ)
  /-- The head of the loop. -/
  | trying (writers : List ℕ) (deadline : ℕ)
  | sending (writers : List ℕ) (deadline limit : ℕ)
  /-- `wait_until_completed` in the loop. -/
  | waiting (writers : List ℕ) (deadline limit : ℕ)
  | completing
  deriving DecidableEq

inductive Thread where
  | ended
  /-- `signal_stop_disconnect`. -/
  | signal
  | raise
  | wake
  | signalWait (limit : ℕ)
  /-- `run` before its main loop. -/
  | boot (e : ℕ)
  | loop (e : ℕ)
  | request (e : ℕ) (caller : Caller) (pc : Request)
  /-- The call of the main loop has returned. -/
  | finished (e : ℕ)
  | tail (e : ℕ)
  | draining (e : ℕ)
  /-- A session before its incarnation is numbered. -/
  | connecting (e : ℕ)
  | configuring (e id : ℕ)
  | registering (e id activity : ℕ)
  | session (e id : ℕ)
  /-- The call of a cancelled session has returned. -/
  | cancelled (e id : ℕ)
  | closing (e id : ℕ)
  | closed (e id : ℕ)
  deriving DecidableEq

def Caller.runs (e : ℕ) : Caller → Option ℕ
  | .main => some e
  | .session _ => none

/-- The engine whose `run` it is. -/
def Thread.runs : Thread → Option ℕ
  | .boot e | .loop e | .finished e | .tail e | .draining e => some e
  | .request e caller _ => caller.runs e
  | _ => none

/-- The engine that it belongs to. -/
def Thread.engine : Thread → Option ℕ
  | .boot e | .loop e | .request e _ _ | .finished e | .tail e | .draining e | .connecting e
  | .configuring e _ | .registering e _ _ | .session e _ | .cancelled e _ | .closing e _
  | .closed e _ => some e
  | _ => none

abbrev System := Pool Process Thread
abbrev Out := Turn Process Thread

/-- What a poll finds. -/
inductive Choice where
  | ok
  | fail
  | late
  | groups
  | ctrlC
  | cancelled
  | stop
  deriving DecidableEq

def Caller.back (e : ℕ) : Caller → Thread
  | .main => .finished e
  | .session id => .cancelled e id

namespace Process

def new : Process where
  stopFlag := false
  stopDone := false
  nextIncarnationId := 1
  now := 0
  cancelled := fun _ => false
  sessions := fun _ => { shutdown := .new, registered := [], closed := [] }
  started := 0

def cancel (s : Process) (e : ℕ) : Process :=
  { s with cancelled := Function.update s.cancelled e true }

def setSessions (s : Process) (e : ℕ) (sessions : Sessions) : Process :=
  { s with sessions := Function.update s.sessions e sessions }

def setShutdown (s : Process) (e : ℕ) (shutdown : ShutdownCoordinator) : Process :=
  s.setSessions e { s.sessions e with shutdown }

/-- `register`, after the activity is drawn. -/
def register (s : Process) (e id activity : ℕ) : Process :=
  s.setSessions e
    { s.sessions e with
      shutdown := (s.sessions e).shutdown.register id activity
      registered := id :: (s.sessions e).registered }

/-- The registration is dropped. -/
def unregister (s : Process) (e id : ℕ) : Process :=
  s.setSessions e
    { s.sessions e with
      shutdown := (s.sessions e).shutdown.unregister id
      registered := (s.sessions e).registered.filter (· ≠ id) }

/-- The writer ends, or is aborted. -/
def close (s : Process) (e id : ℕ) : Process :=
  s.setSessions e { s.sessions e with closed := id :: (s.sessions e).closed }

end Process

variable (s : Process)

/-- A step of `request_disconnect`. -/
def Request.step (e : ℕ) (caller : Caller) (c : Choice) : Request → Option Out
  | .enter =>
    if (s.sessions e).shutdown.active then
      some ⟨s, .request e caller (.following (s.now + followerWait)), none⟩
    else
      some ⟨s.setShutdown e (s.sessions e).shutdown.lead,
        .request e caller (.leading (s.now + disconnectBudget)), none⟩
  | .following limit =>
    if (s.sessions e).shutdown.completed ∨ limit ≤ s.now then some ⟨s, caller.back e, none⟩
    else none
  | .leading deadline =>
    some ⟨s, .request e caller (.trying (s.sessions e).shutdown.controlStreams deadline), none⟩
  | .trying [] _ => some ⟨s, .request e caller .completing, none⟩
  | .trying (writer :: writers) deadline =>
    if (s.sessions e).shutdown.completed ∨ deadline ≤ s.now then
      some ⟨s, .request e caller .completing, none⟩
    -- the `try_send` fails at once
    else if writer ∈ (s.sessions e).closed then
      some ⟨s, .request e caller (.trying writers deadline), none⟩
    else
      some ⟨s, .request e caller (.sending writers deadline
        (s.now + min disconnectAttempt (deadline - s.now))), none⟩
  | .sending writers deadline limit =>
    match c with
    | .ok =>
      if deadline ≤ s.now then some ⟨s, .request e caller .completing, none⟩
      else
        some ⟨s, .request e caller (.waiting writers deadline
          (s.now + min disconnectAttempt (deadline - s.now))), none⟩
    | .fail => some ⟨s, .request e caller (.trying writers deadline), none⟩
    | .late =>
      if limit ≤ s.now then some ⟨s, .request e caller (.trying writers deadline), none⟩ else none
    | _ => none
  | .waiting writers deadline limit =>
    if (s.sessions e).shutdown.completed then some ⟨s, .request e caller .completing, none⟩
    else if limit ≤ s.now then some ⟨s, .request e caller (.trying writers deadline), none⟩
    else none
  | .completing =>
    some ⟨s.setShutdown e (s.sessions e).shutdown.complete, caller.back e, none⟩

/-- A turn of the `select` in `run`. -/
def loopStep (e : ℕ) : Choice → Option Out
  | .groups => some ⟨s, .tail e, none⟩
  | .ctrlC => some ⟨s.cancel e, .tail e, none⟩
  | .cancelled => if s.cancelled e then some ⟨s, .tail e, none⟩ else none
  | .stop =>
    -- the swap in `stop_disconnect_requested`
    if s.stopFlag then some ⟨{ s with stopFlag := false }, .request e .main .enter, none⟩ else none
  | _ => none

def Thread.step (c : Choice) : Thread → Option Out
  | .ended => none
  | .signal => some ⟨{ s with stopDone := false }, .raise, none⟩
  | .raise => some ⟨{ s with stopFlag := true }, .wake, none⟩
  | .wake => some ⟨s, .signalWait (s.now + stopWait), none⟩
  | .signalWait limit => if s.stopDone ∨ limit ≤ s.now then some ⟨s, .ended, none⟩ else none
  | .boot e => some ⟨s, if c = .fail then .ended else .loop e, none⟩
  | .loop e => loopStep s e c
  | .request e caller pc => pc.step s e caller c
  -- `stop_disconnect_finished`
  | .finished e => some ⟨{ s with stopDone := true }, .loop e, none⟩
  | .tail e => some ⟨s.cancel e, .draining e, none⟩
  | .draining _ => some ⟨s, .ended, none⟩
  | .connecting e =>
    match c with
    | .fail => some ⟨s, .ended, none⟩
    | _ =>
      some ⟨{ s with nextIncarnationId := s.nextIncarnationId + 1 },
        .configuring e (max s.nextIncarnationId 1), none⟩
  | .configuring e id =>
    match c with
    | .fail => some ⟨s, .ended, none⟩
    | _ =>
      some ⟨s.setShutdown e (s.sessions e).shutdown.takeActivity.2,
        .registering e id (s.sessions e).shutdown.takeActivity.1, none⟩
  | .registering e id activity => some ⟨s.register e id activity, .session e id, none⟩
  | .session e id =>
    match c with
    | .cancelled =>
      if s.cancelled e then some ⟨s, .request e (.session id) .enter, none⟩ else none
    -- a rebind, a repair, a parked path, or the end of the reader or the writer
    | .fail => some ⟨s, .closing e id, none⟩
    | _ => none
  | .cancelled e id => some ⟨s, .closing e id, none⟩
  | .closing e id => some ⟨s.close e id, .closed e id, none⟩
  | .closed e id => some ⟨s.unregister e id, .ended, none⟩

/-- `await_session_task` aborts a session where it awaits something: its locals are dropped. -/
def Thread.abort : Thread → Option (ℕ × Thread)
  | .configuring e _ => some (e, .ended)
  | .session e id | .closing e id | .request e (.session id) (.following _)
  | .request e (.session id) (.sending ..) | .request e (.session id) (.waiting ..) =>
    some (e, .closed e id)
  | _ => none

inductive Event where
  /-- Time passes. -/
  | tick (d : ℕ)
  /-- An engine is started. -/
  | start
  /-- The host calls `csqtt_engine_disconnect`. -/
  | signal
  /-- The token of an engine is cancelled. -/
  | cancel (e : ℕ)
  /-- A worker starts a session. -/
  | connect (e : ℕ)
  /-- The writer of a session has sent a batch. -/
  | sent (e id : ℕ)
  /-- The writer of a session ends. -/
  | close (e id : ℕ)
  /-- A session reads a message of the server. -/
  | response (e : ℕ) (response : Packet)
  /-- A cancelled session has not ended in time. -/
  | abort (i : ℕ)
  /-- The next step of thread `i`. -/
  | go (i : ℕ) (c : Choice)

namespace System

def new : System := ⟨.new, []⟩

/-- The engines whose `run` has not returned. -/
def running (s : System) : List ℕ := s.threads.filterMap Thread.runs

def step (s : System) : Event → Option System
  | .tick d => some (s.put { s.shared with now := s.shared.now + d } none)
  | .start =>
    some (s.put { s.shared with started := s.shared.started + 1 } (some (.boot s.shared.started)))
  | .signal => some (s.put s.shared (some .signal))
  | .cancel e => if e < s.shared.started then some (s.put (s.shared.cancel e) none) else none
  | .connect e =>
    if e ∈ s.running then some (s.put s.shared (some (.connecting e))) else none
  | .sent e id =>
    if id ∈ (s.shared.sessions e).registered then
      some (s.put (s.shared.setShutdown e ((s.shared.sessions e).shutdown.markActivity id)) none)
    else none
  | .close e id =>
    if id ∈ (s.shared.sessions e).registered then some (s.put (s.shared.close e id) none) else none
  | .response e response =>
    some (s.put (s.shared.setShutdown e ((s.shared.sessions e).shutdown.observe response)) none)
  | .abort i =>
    s.threads[i]?.bind fun t => t.abort.bind fun (e, next) =>
      if s.shared.cancelled e then some (s.after i ⟨s.shared, next, none⟩) else none
  | .go i c => s.threads[i]?.bind fun t => (t.step s.shared c).map (s.after i)

end System

/-! ### What a step can do -/

/-- The steps that change nothing which is shared. -/
inductive Pass : Thread → Thread → Prop where
  | wake : Pass .wake (.signalWait (s.now + stopWait))
  | signalDone {limit : ℕ} : Pass (.signalWait limit) .ended
  | booted {e : ℕ} : Pass (.boot e) (.loop e)
  | unbooted {e : ℕ} : Pass (.boot e) .ended
  | drained {e : ℕ} : Pass (.draining e) .ended
  | leave {e : ℕ} : Pass (.loop e) (.tail e)
  | follow {e : ℕ} {caller : Caller} (h : (s.sessions e).shutdown.active) :
      Pass (.request e caller .enter) (.request e caller (.following (s.now + followerWait)))
  | followed {e limit : ℕ} {caller : Caller}
      (h : (s.sessions e).shutdown.completed ∨ limit ≤ s.now) :
      Pass (.request e caller (.following limit)) (caller.back e)
  | streams {e deadline : ℕ} {caller : Caller} :
      Pass (.request e caller (.leading deadline))
        (.request e caller (.trying (s.sessions e).shutdown.controlStreams deadline))
  | exhausted {e deadline : ℕ} {caller : Caller} :
      Pass (.request e caller (.trying [] deadline)) (.request e caller .completing)
  | stopped {e deadline writer : ℕ} {writers : List ℕ} {caller : Caller}
      (h : (s.sessions e).shutdown.completed ∨ deadline ≤ s.now) :
      Pass (.request e caller (.trying (writer :: writers) deadline))
        (.request e caller .completing)
  | refused {e deadline writer : ℕ} {writers : List ℕ} {caller : Caller}
      (h : writer ∈ (s.sessions e).closed) :
      Pass (.request e caller (.trying (writer :: writers) deadline))
        (.request e caller (.trying writers deadline))
  | offer {e deadline writer limit : ℕ} {writers : List ℕ} {caller : Caller}
      (hopen : writer ∉ (s.sessions e).closed)
      (h : ¬ ((s.sessions e).shutdown.completed ∨ deadline ≤ s.now)) :
      Pass (.request e caller (.trying (writer :: writers) deadline))
        (.request e caller (.sending writers deadline limit))
  | sentLate {e deadline limit : ℕ} {writers : List ℕ} {caller : Caller} :
      Pass (.request e caller (.sending writers deadline limit)) (.request e caller .completing)
  | sent {e deadline limit limit' : ℕ} {writers : List ℕ} {caller : Caller} :
      Pass (.request e caller (.sending writers deadline limit))
        (.request e caller (.waiting writers deadline limit'))
  | unsent {e deadline limit : ℕ} {writers : List ℕ} {caller : Caller} :
      Pass (.request e caller (.sending writers deadline limit))
        (.request e caller (.trying writers deadline))
  | answered {e deadline limit : ℕ} {writers : List ℕ} {caller : Caller} :
      Pass (.request e caller (.waiting writers deadline limit)) (.request e caller .completing)
  | silent {e deadline limit : ℕ} {writers : List ℕ} {caller : Caller} :
      Pass (.request e caller (.waiting writers deadline limit))
        (.request e caller (.trying writers deadline))
  | unconnected {e : ℕ} : Pass (.connecting e) .ended
  | unconfigured {e id : ℕ} : Pass (.configuring e id) .ended
  | cancel {e id : ℕ} : Pass (.session e id) (.request e (.session id) .enter)
  | ends {e id : ℕ} : Pass (.session e id) (.closing e id)
  | parting {e id : ℕ} : Pass (.cancelled e id) (.closing e id)

/-- The steps of a thread. -/
inductive Act : Thread → Out → Prop where
  | pass {t next : Thread} (h : Pass s t next) : Act t ⟨s, next, none⟩
  | signal : Act .signal ⟨{ s with stopDone := false }, .raise, none⟩
  | raise : Act .raise ⟨{ s with stopFlag := true }, .wake, none⟩
  | ctrlC {e : ℕ} : Act (.loop e) ⟨s.cancel e, .tail e, none⟩
  | stop {e : ℕ} (h : s.stopFlag) :
      Act (.loop e) ⟨{ s with stopFlag := false }, .request e .main .enter, none⟩
  | lead {e : ℕ} {caller : Caller} (h : (s.sessions e).shutdown.active = false) :
      Act (.request e caller .enter) ⟨s.setShutdown e (s.sessions e).shutdown.lead,
        .request e caller (.leading (s.now + disconnectBudget)), none⟩
  | complete {e : ℕ} {caller : Caller} :
      Act (.request e caller .completing)
        ⟨s.setShutdown e (s.sessions e).shutdown.complete, caller.back e, none⟩
  | finished {e : ℕ} : Act (.finished e) ⟨{ s with stopDone := true }, .loop e, none⟩
  | tail {e : ℕ} : Act (.tail e) ⟨s.cancel e, .draining e, none⟩
  | connecting {e : ℕ} :
      Act (.connecting e) ⟨{ s with nextIncarnationId := s.nextIncarnationId + 1 },
        .configuring e (max s.nextIncarnationId 1), none⟩
  | configuring {e id : ℕ} :
      Act (.configuring e id) ⟨s.setShutdown e (s.sessions e).shutdown.takeActivity.2,
        .registering e id (s.sessions e).shutdown.takeActivity.1, none⟩
  | registering {e id activity : ℕ} :
      Act (.registering e id activity) ⟨s.register e id activity, .session e id, none⟩
  | closing {e id : ℕ} : Act (.closing e id) ⟨s.close e id, .closed e id, none⟩
  | closed {e id : ℕ} : Act (.closed e id) ⟨s.unregister e id, .ended, none⟩

@[simp] theorem Caller.runs_back (e : ℕ) (caller : Caller) :
    (caller.back e).runs = caller.runs e := by
  cases caller <;> rfl

@[simp] theorem Caller.engine_back (e : ℕ) (caller : Caller) :
    (caller.back e).engine = some e := by
  cases caller <;> rfl

variable {s} {c : Choice} {out : Out}

theorem act_of_request {e : ℕ} {caller : Caller} {pc : Request}
    (h : pc.step s e caller c = some out) : Act s (.request e caller pc) out := by
  cases pc with
  | enter =>
    rw [Request.step] at h
    split_ifs at h with hactive
    · exact Option.some.inj h ▸ .pass (.follow hactive)
    · exact Option.some.inj h ▸ .lead (Bool.eq_false_iff.mpr hactive)
  | following limit =>
    rw [Request.step] at h
    split_ifs at h with hover
    exact Option.some.inj h ▸ .pass (.followed hover)
  | leading deadline => exact Option.some.inj h ▸ .pass .streams
  | trying writers deadline =>
    rcases writers with _ | ⟨writer, writers⟩
    · exact Option.some.inj h ▸ .pass .exhausted
    · rw [Request.step] at h
      split_ifs at h with hover hclosed
      · exact Option.some.inj h ▸ .pass (.stopped hover)
      · exact Option.some.inj h ▸ .pass (.refused hclosed)
      · exact Option.some.inj h ▸ .pass (.offer hclosed hover)
  | sending writers deadline limit =>
    cases c with
    | ok =>
      simp only [Request.step] at h
      split_ifs at h
      · exact Option.some.inj h ▸ .pass .sentLate
      · exact Option.some.inj h ▸ .pass .sent
    | fail => exact Option.some.inj h ▸ .pass .unsent
    | late =>
      simp only [Request.step] at h
      split_ifs at h
      exact Option.some.inj h ▸ .pass .unsent
    | _ => exact nomatch h
  | waiting writers deadline limit =>
    rw [Request.step] at h
    split_ifs at h
    · exact Option.some.inj h ▸ .pass .answered
    · exact Option.some.inj h ▸ .pass .silent
  | completing => exact Option.some.inj h ▸ .complete

theorem act_of_loop {e : ℕ} (h : loopStep s e c = some out) : Act s (.loop e) out := by
  cases c with
  | groups => exact Option.some.inj h ▸ .pass .leave
  | ctrlC => exact Option.some.inj h ▸ .ctrlC
  | cancelled =>
    rw [loopStep] at h
    split_ifs at h
    exact Option.some.inj h ▸ .pass .leave
  | stop =>
    rw [loopStep] at h
    split_ifs at h with hflag
    exact Option.some.inj h ▸ .stop hflag
  | _ => exact nomatch h

theorem step_act {t : Thread} (h : t.step s c = some out) : Act s t out := by
  cases t with
  | ended => exact nomatch h
  | signal => exact Option.some.inj h ▸ .signal
  | raise => exact Option.some.inj h ▸ .raise
  | wake => exact Option.some.inj h ▸ .pass .wake
  | signalWait limit =>
    rw [Thread.step] at h
    split_ifs at h
    exact Option.some.inj h ▸ .pass .signalDone
  | boot e =>
    rw [Thread.step] at h
    split_ifs at h
    · exact Option.some.inj h ▸ .pass .unbooted
    · exact Option.some.inj h ▸ .pass .booted
  | loop e => exact act_of_loop h
  | request e caller pc => exact act_of_request h
  | finished e => exact Option.some.inj h ▸ .finished
  | tail e => exact Option.some.inj h ▸ .tail
  | draining e => exact Option.some.inj h ▸ .pass .drained
  | connecting e =>
    cases c with
    | fail => exact Option.some.inj h ▸ .pass .unconnected
    | _ => exact Option.some.inj h ▸ .connecting
  | configuring e id =>
    cases c with
    | fail => exact Option.some.inj h ▸ .pass .unconfigured
    | _ => exact Option.some.inj h ▸ .configuring
  | registering e id activity => exact Option.some.inj h ▸ .registering
  | session e id =>
    cases c with
    | cancelled =>
      simp only [Thread.step] at h
      split_ifs at h
      exact Option.some.inj h ▸ .pass .cancel
    | fail => exact Option.some.inj h ▸ .pass .ends
    | _ => exact nomatch h
  | cancelled e id => exact Option.some.inj h ▸ .pass .parting
  | closing e id => exact Option.some.inj h ▸ .closing
  | closed e id => exact Option.some.inj h ▸ .closed

/-- What is left of a session that is aborted. -/
theorem abort_cases {e : ℕ} {t next : Thread} (h : t.abort = some (e, next)) :
    t.engine = some e ∧ (next = .ended ∨ ∃ id, next = .closed e id) := by
  cases t with
  | configuring =>
    cases h
    exact ⟨rfl, .inl rfl⟩
  | session _ id | closing _ id =>
    cases h
    exact ⟨rfl, .inr ⟨id, rfl⟩⟩
  | request _ caller pc =>
    rcases caller with _ | id
    · exact nomatch h
    · cases pc with
      | following | sending | waiting =>
        cases h
        exact ⟨rfl, .inr ⟨id, rfl⟩⟩
      | _ => exact nomatch h
  | _ => exact nomatch h

/-- No step starts another thread, none takes over an engine or changes to another one. -/
theorem Act.keeps {t : Thread} (h : Act s t out) : out.started = none ∧
    (∀ e, out.next.runs = some e → t.runs = some e) ∧
      ∀ e, out.next.engine = some e → t.engine = some e := by
  cases h with
  | pass h =>
    cases h with
    | @followed e _ caller =>
      exact ⟨rfl, fun _ he => (caller.runs_back e).symm.trans he,
        fun _ he => (caller.engine_back e).symm.trans he⟩
    | cancel | ends | parting => exact ⟨rfl, nofun, fun _ he => he⟩
    | wake | signalDone | unbooted | drained | unconnected | unconfigured =>
      exact ⟨rfl, nofun, nofun⟩
    | _ => exact ⟨rfl, fun _ he => he, fun _ he => he⟩
  | @complete e caller =>
    exact ⟨rfl, fun _ he => (caller.runs_back e).symm.trans he,
      fun _ he => (caller.engine_back e).symm.trans he⟩
  | signal | raise | closed => exact ⟨rfl, nofun, nofun⟩
  | _ => exact ⟨rfl, fun _ he => he, fun _ he => he⟩

theorem Act.started {t : Thread} (h : Act s t out) : out.shared.started = s.started := by
  cases h with
  | _ => rfl

theorem Thread.engine_of_runs {t : Thread} {e : ℕ} (h : t.runs = some e) : t.engine = some e := by
  cases t with
  | request e' caller =>
    cases caller with
    | main => exact h
    | session => exact nomatch h
  | boot | loop | finished | tail | draining => exact h
  | _ => exact nomatch h

/-- The steps of everybody. -/
inductive Step (s : System) : Event → System → Prop where
  | tick {d : ℕ} : Step s (.tick d) (s.put { s.shared with now := s.shared.now + d } none)
  | start : Step s .start
      (s.put { s.shared with started := s.shared.started + 1 } (some (.boot s.shared.started)))
  | signal : Step s .signal (s.put s.shared (some .signal))
  | cancel {e : ℕ} (h : e < s.shared.started) :
      Step s (.cancel e) (s.put (s.shared.cancel e) none)
  | connect {e : ℕ} (h : e ∈ s.running) :
      Step s (.connect e) (s.put s.shared (some (.connecting e)))
  | sent {e id : ℕ} (h : id ∈ (s.shared.sessions e).registered) : Step s (.sent e id)
      (s.put (s.shared.setShutdown e ((s.shared.sessions e).shutdown.markActivity id)) none)
  | close {e id : ℕ} (h : id ∈ (s.shared.sessions e).registered) :
      Step s (.close e id) (s.put (s.shared.close e id) none)
  | response {e : ℕ} {response : Packet} : Step s (.response e response)
      (s.put (s.shared.setShutdown e ((s.shared.sessions e).shutdown.observe response)) none)
  | abort {i e : ℕ} {t next : Thread} (ht : s.threads[i]? = some t)
      (h : t.abort = some (e, next)) : Step s (.abort i) (s.after i ⟨s.shared, next, none⟩)
  | go {i : ℕ} {c : Choice} {t : Thread} {out : Out} (ht : s.threads[i]? = some t)
      (hout : t.step s.shared c = some out) : Step s (.go i c) (s.after i out)

theorem step_cases {s s' : System} {ev : Event} (h : s.step ev = some s') : Step s ev s' := by
  cases ev with
  | tick d => exact Option.some.inj h ▸ .tick
  | start => exact Option.some.inj h ▸ .start
  | signal => exact Option.some.inj h ▸ .signal
  | cancel e =>
    rw [System.step] at h
    split_ifs at h with hstarted
    exact Option.some.inj h ▸ .cancel hstarted
  | connect e =>
    rw [System.step] at h
    split_ifs at h with hrunning
    exact Option.some.inj h ▸ .connect hrunning
  | sent e id =>
    rw [System.step] at h
    split_ifs at h with hregistered
    exact Option.some.inj h ▸ .sent hregistered
  | close e id =>
    rw [System.step] at h
    split_ifs at h with hregistered
    exact Option.some.inj h ▸ .close hregistered
  | response e response => exact Option.some.inj h ▸ .response
  | abort i =>
    obtain ⟨t, ht, h⟩ := Option.bind_eq_some_iff.mp h
    obtain ⟨⟨e, next⟩, habort, h⟩ := Option.bind_eq_some_iff.mp h
    simp only at h
    split_ifs at h
    exact Option.some.inj h ▸ .abort ht habort
  | go i c =>
    obtain ⟨t, ht, h⟩ := Option.bind_eq_some_iff.mp h
    obtain ⟨out, hout, rfl⟩ := Option.map_eq_some_iff.mp h
    exact .go ht hout

end Csqtt.Shutdown
