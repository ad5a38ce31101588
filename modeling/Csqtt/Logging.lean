/-
The log pipeline: `stdout` and `stderr` lines go through two bounded queues to one thread
that writes them.

A call of `enqueue_protocol` or `enqueue_diagnostic` never waits: a full queue gives up its
oldest line.  Three counters say how many lines are on their way and how many calls are
inside, and the writer concludes from them that nothing is left.  The model has the atomic
operations of `logging.rs` as its steps, by any number of threads in any order.

The lines carry the call that they come from, and each lane what it let in, wrote and
dropped so far; no step reads these.  The writer sleeps for 100 ms at most, so it may always
go on, and where it sleeps is left out.
-/
import Csqtt.SharedLedger
import Csqtt.TransitionRun
import Mathlib.Data.List.Basic

namespace Csqtt.Logging

/-- `PROTOCOL_BURST`. -/
def protocolBurst : ℕ := 32

/-- `COALESCE_BATCH`. -/
def coalesceBatch : ℕ := 64

/-- How often `replace_oldest` tries to push. -/
def pushTries : ℕ := 4

/-- The two queues and their targets. -/
inductive Target where
  | protocol
  | diagnostic
  deriving DecidableEq

/-- A formatted line, with the thread and the call of this thread that it comes from. -/
structure LogLine (ι : Type*) where
  value : String
  owner : ι
  number : ℕ
  deriving DecidableEq

/-- A queue with its counters, and what its sink was given: texts with their repetitions. -/
structure Lane (ι : Type*) where
  capacity : ℕ
  queue : List (LogLine ι) := []
  outstanding : ℕ := 0
  dropped : ℕ := 0
  sink : List (String × ℕ) := []
  /-- The lines of the calls that `begin_producer` let in, and what became of them. -/
  accepted : List (LogLine ι) := []
  written : List (LogLine ι) := []
  discarded : List (LogLine ι) := []

namespace Lane

variable {ι : Type*}

/-- `outstanding.fetch_add(1)`. -/
def count (l : Lane ι) : Lane ι := { l with outstanding := l.outstanding + 1 }

/-- `outstanding.fetch_sub(1)`. -/
def uncount (l : Lane ι) : Lane ι := { l with outstanding := l.outstanding - 1 }

/-- `dropped.fetch_add(1)`. -/
def drop (l : Lane ι) (line : LogLine ι) : Lane ι :=
  { l with dropped := l.dropped + 1, discarded := l.discarded ++ [line] }

def letIn (l : Lane ι) (line : LogLine ι) : Lane ι :=
  { l with accepted := l.accepted ++ [line] }

/-- `Sink::write_line`, with the lines that the repetitions stand for. -/
def writeLine (l : Lane ι) (line : LogLine ι) (merged : List (LogLine ι)) : Lane ι :=
  { l with
    sink := l.sink ++ [(line.value, merged.length + 1)]
    written := l.written ++ line :: merged }

end Lane

/-- Where a thread is in `enqueue_protocol` or `enqueue_diagnostic`. -/
inductive ProducerPc (ι : Type*) where
  /-- In no call. -/
  | out
  /-- At the first load of `accepting`; `format_line` will give this line, or none. -/
  | enter (target : Target) (line : Option (LogLine ι))
  | register (target : Target) (line : Option (LogLine ι))
  /-- At the second load of `accepting`. -/
  | recheck (target : Target) (line : Option (LogLine ι))
  /-- At the first `fetch_add` of `replace_oldest`. -/
  | count (target : Target) (line : LogLine ι)
  /-- At the push, with so many tries left. -/
  | push (target : Target) (line : LogLine ι) (tries : ℕ)
  | pop (target : Target) (line : LogLine ι) (tries : ℕ)
  /-- The oldest line has been popped: the two updates for it. -/
  | uncount (target : Target) (line old : LogLine ι) (tries : ℕ)
  | drop (target : Target) (line old : LogLine ι) (tries : ℕ)
  /-- After the last try: the two updates for the line itself. -/
  | giveUp (target : Target) (line : LogLine ι)
  | dropOwn (target : Target) (line : LogLine ι)
  /-- At the `notify_writer` of `push_protocol` or `push_diagnostic`. -/
  | notify
  /-- At the `fetch_sub` of `finish_producer`, and at its `notify_writer`. -/
  | finish
  | finished
  deriving DecidableEq

/-- Where `writer_loop` is. -/
inductive WriterPc (ι : Type*) where
  | top
  /-- A protocol line has been popped; `protocol_burst` becomes `burst` after it. -/
  | writeProtocol (line : LogLine ι) (burst : ℕ)
  | uncountProtocol (burst : ℕ)
  | diagnostic
  /-- `repetitions` is one more than the lines `merged` into `line`. -/
  | coalesce (line : LogLine ι) (merged : List (LogLine ι))
  | uncountMerged (line : LogLine ι) (merged : List (LogLine ι))
  | writeDiagnostic (line : LogLine ι) (merged : List (LogLine ι))
  | uncountDiagnostic
  /-- At the second pop of the protocol queue. -/
  | again
  /-- The three loads of `idle`. -/
  | idleProtocol
  | idleDiagnostic
  | idleProducers
  | flushRequested
  | flushCompleted (requested : ℕ)
  | shutdown
  | wait
  | returned
  deriving DecidableEq

structure Shared (ι : Type*) where
  lane : Target → Lane ι
  producers : ℕ := 0
  accepting : Bool := true
  shutdown : Bool := false
  flushRequested : ℕ := 0
  flushCompleted : ℕ := 0
  wakeGeneration : ℕ := 0
  thread : ι → ProducerPc ι := fun _ => .out
  /-- How many calls each thread has begun. -/
  calls : ι → ℕ := fun _ => 0
  writer : WriterPc ι := .top
  /-- The two variables of `writer_loop`. -/
  burst : ℕ := 0
  pendingDiagnostic : Option (LogLine ι) := none
  /-- For each `flush`, the lines that were let in before its request. -/
  asked : List (Target → List (LogLine ι)) := []

/-- Who takes the next step. -/
inductive Label (ι : Type*) where
  /-- A thread calls `enqueue_protocol` or `enqueue_diagnostic`; without a text,
  `format_line` fails. -/
  | call (thread : ι) (target : Target) (text : Option String)
  | producer (thread : ι)
  | writer
  /-- The `fetch_add` of `flush`. -/
  | flush
  /-- The two stores of `shutdown`, or of the logger's `drop`. -/
  | refuse
  | shutdown
  deriving DecidableEq

namespace Shared

variable {ι : Type*} [DecidableEq ι]

/-- `Shared::new`. -/
def new (ι : Type*) (protocolCapacity diagnosticCapacity : ℕ) : Shared ι where
  lane
    | .protocol => { capacity := max protocolCapacity 1 }
    | .diagnostic => { capacity := max diagnosticCapacity 1 }

def onLane (s : Shared ι) (target : Target) (f : Lane ι → Lane ι) : Shared ι :=
  { s with lane := Function.update s.lane target (f (s.lane target)) }

def goto (s : Shared ι) (t : ι) (pc : ProducerPc ι) : Shared ι :=
  { s with thread := Function.update s.thread t pc }

def notifyWriter (s : Shared ι) : Shared ι := { s with wakeGeneration := s.wakeGeneration + 1 }

/-- The next step of a thread inside of a call. -/
def producerStep (s : Shared ι) (t : ι) : Option (Shared ι) :=
  match s.thread t with
  | .out => none
  | .enter target line => some (s.goto t (if s.accepting then .register target line else .out))
  | .register target line =>
    some ({ s with producers := s.producers + 1 }.goto t (.recheck target line))
  | .recheck target line =>
    if s.accepting then
      match line with
      | some line => some ((s.onLane target (·.letIn line)).goto t (.count target line))
      | none => some (s.goto t .finish)
    else some (s.goto t .finish)
  | .count target line => some ((s.onLane target Lane.count).goto t (.push target line pushTries))
  | .push target line tries =>
    if tries = 0 then some (s.goto t (.giveUp target line))
    else if (s.lane target).queue.length < (s.lane target).capacity then
      some ((s.onLane target fun l => { l with queue := l.queue ++ [line] }).goto t .notify)
    else some (s.goto t (.pop target line tries))
  | .pop target line tries =>
    match (s.lane target).queue with
    | old :: queue =>
      some ((s.onLane target fun l => { l with queue }).goto t (.uncount target line old tries))
    | [] => some (s.goto t (.push target line (tries - 1)))
  | .uncount target line old tries =>
    some ((s.onLane target Lane.uncount).goto t (.drop target line old tries))
  | .drop target line old tries =>
    some ((s.onLane target (·.drop old)).goto t (.push target line (tries - 1)))
  | .giveUp target line => some ((s.onLane target Lane.uncount).goto t (.dropOwn target line))
  | .dropOwn target line => some ((s.onLane target (·.drop line)).goto t .notify)
  | .notify => some (s.notifyWriter.goto t .finish)
  | .finish => some ({ s with producers := s.producers - 1 }.goto t .finished)
  | .finished => some (s.notifyWriter.goto t .out)

/-- A pop of the protocol queue: the line will be written, or there is none. -/
def takeProtocol (s : Shared ι) (burst : ℕ) (empty : WriterPc ι) : Shared ι :=
  match (s.lane .protocol).queue with
  | line :: queue =>
    { s.onLane .protocol fun l => { l with queue } with writer := .writeProtocol line burst }
  | [] => { s with writer := empty }

/-- `idle` goes on to its next load. -/
def idleLoad (s : Shared ι) (counter : ℕ) (next : WriterPc ι) : Shared ι :=
  { s with writer := if counter = 0 then next else .wait }

/-- The next step of `writer_loop`. -/
def writerStep (s : Shared ι) : Option (Shared ι) :=
  match s.writer with
  | .top =>
    if s.burst < protocolBurst then some (s.takeProtocol (s.burst + 1) .diagnostic)
    else some { s with writer := .diagnostic }
  | .writeProtocol line burst =>
    some { s.onLane .protocol (·.writeLine line []) with writer := .uncountProtocol burst }
  | .uncountProtocol burst =>
    some { s.onLane .protocol Lane.uncount with writer := .top, burst }
  | .diagnostic =>
    match s.pendingDiagnostic, (s.lane .diagnostic).queue with
    | some line, _ => some { s with pendingDiagnostic := none, writer := .coalesce line [] }
    | none, line :: queue =>
      some { s.onLane .diagnostic fun l => { l with queue } with writer := .coalesce line [] }
    | none, [] => some { s with writer := .again }
  | .coalesce line merged =>
    if merged.length + 1 < coalesceBatch then
      match (s.lane .diagnostic).queue with
      | next :: queue =>
        let s := s.onLane .diagnostic fun l => { l with queue }
        if next.value = line.value then
          some { s with writer := .uncountMerged line (merged ++ [next]) }
        else some { s with pendingDiagnostic := some next, writer := .writeDiagnostic line merged }
      | [] => some { s with writer := .writeDiagnostic line merged }
    else some { s with writer := .writeDiagnostic line merged }
  | .uncountMerged line merged =>
    some { s.onLane .diagnostic Lane.uncount with writer := .coalesce line merged }
  | .writeDiagnostic line merged =>
    some { s.onLane .diagnostic (·.writeLine line merged) with writer := .uncountDiagnostic }
  | .uncountDiagnostic =>
    some { s.onLane .diagnostic Lane.uncount with writer := .top, burst := 0 }
  | .again => some (s.takeProtocol 1 .idleProtocol)
  | .idleProtocol => some (s.idleLoad (s.lane .protocol).outstanding .idleDiagnostic)
  | .idleDiagnostic => some (s.idleLoad (s.lane .diagnostic).outstanding .idleProducers)
  | .idleProducers => some (s.idleLoad s.producers .flushRequested)
  | .flushRequested => some { s with writer := .flushCompleted s.flushRequested }
  | .flushCompleted requested =>
    -- the sinks are flushed before `complete_flush`
    some { s with
      flushCompleted := if requested > s.flushCompleted then requested else s.flushCompleted
      writer := .shutdown }
  | .shutdown => some { s with writer := if s.shutdown then .returned else .wait }
  | .wait => some { s with writer := .top }
  | .returned => none

def step (s : Shared ι) : Label ι → Option (Shared ι)
  | .call t target text =>
    match s.thread t with
    | .out =>
      some ({ s with calls := Function.update s.calls t (s.calls t + 1) }.goto t
        (.enter target (text.map fun value => { value, owner := t, number := s.calls t })))
    | _ => none
  | .producer t => s.producerStep t
  | .writer => s.writerStep
  | .flush =>
    some { s.notifyWriter with
      flushRequested := s.flushRequested + 1
      asked := s.asked ++ [fun target => (s.lane target).accepted] }
  | .refuse => some { s with accepting := false }
  -- `accepting` is stored first, and never set again
  | .shutdown => if s.accepting then none else some { s with shutdown := true }.notifyWriter

end Shared

end Csqtt.Logging
