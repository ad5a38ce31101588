/-
Flow frames: the reassembler that puts the values of one TCP flow back in order.

A flow keeps the sequence number it expects next and the values that arrived
ahead of it.  `push_at` delivers what is due, stores what is ahead, and skips the
lowest gap when the gap has aged, when the flow is full or when the whole table
is.  Values are handed over in a queue of the caller's (`output`).
-/
import Csqtt.Containers
import Csqtt.SerialNumber
import Mathlib.Data.List.MinMax

open Containers SerialNumber

namespace Csqtt.FlowFrame

/-- `MAX_TRACKED_FLOWS`. -/
def maxTrackedFlows : ℕ := 4096

/-- `MAX_PENDING_PER_FLOW`. -/
def maxPendingPerFlow : ℕ := 96

/-- `MAX_PENDING_TOTAL`. -/
def maxPendingTotal : ℕ := 4096

/-- `GAP_RELEASE_AFTER_MS`. -/
def gapReleaseAfterMs : ℕ := 12

structure FrameHeader where
  senderId : BitVec 64
  flowId : BitVec 64
  sequence : BitVec 32
  deriving DecidableEq, Repr

structure ReassemblyKey where
  senderId : BitVec 64
  flowId : BitVec 64
  deriving DecidableEq, Repr

def FrameHeader.key (header : FrameHeader) : ReassemblyKey := ⟨header.senderId, header.flowId⟩

structure Pending (T : Type*) where
  sequence : BitVec 32
  value : T
  deriving DecidableEq, Repr

structure FlowState (T : Type*) where
  expected : BitVec 32
  gapStartedMs : Option ℕ
  pending : List (Pending T)
  deriving DecidableEq, Repr

structure FlowReassembler (T : Type*) where
  flows : AList fun _ : ReassemblyKey => FlowState T
  pendingTotal : ℕ

variable {T : Type*}

def FlowState.new : FlowState T := ⟨0, none, []⟩

def FlowReassembler.new : FlowReassembler T := ⟨∅, 0⟩

def isForward (sequence expected : BitVec 32) : Bool :=
  sequence ≠ expected && dist expected sequence < 2 ^ 31

/-- The loop of `drain_contiguous`; each turn takes one value out of `pending`,
so their number is fuel enough. -/
def drainLoop : ℕ → FlowState T → List T → FlowState T × List T
  | 0, state, output => (state, output)
  | fuel + 1, state, output =>
    match state.pending.zipIdx.find? (·.1.sequence == state.expected) with
    | none => (state, output)
    | some (pending, index) =>
      drainLoop fuel
        { state with
          pending := swapRemove state.pending index
          expected := state.expected + 1 }
        (output ++ [pending.value])

def drainContiguous (state : FlowState T) (output : List T) : FlowState T × List T :=
  drainLoop state.pending.length state output

/-- The pending value that is nearest ahead of `expected`, with its index. -/
def lowest (state : FlowState T) : Option (Pending T × ℕ) :=
  (state.pending.zipIdx.filter fun p => isForward p.1.sequence state.expected).argmin
    fun p => dist state.expected p.1.sequence

def releaseLowest (nowMs : ℕ) (state : FlowState T) (output : List T) : FlowState T × List T :=
  match lowest state with
  | none => ({ state with gapStartedMs := none }, output)
  | some (pending, index) =>
    let r := drainContiguous
      ⟨pending.sequence + 1, none, swapRemove state.pending index⟩ (output ++ [pending.value])
    (if r.1.pending.isEmpty then r.1 else { r.1 with gapStartedMs := some nowMs }, r.2)

def gapExpired (nowMs : ℕ) (state : FlowState T) : Bool :=
  state.gapStartedMs.any fun started => gapReleaseAfterMs ≤ nowMs - started

def releaseExpired (nowMs : ℕ) (state : FlowState T) (output : List T) : FlowState T × List T :=
  if gapExpired nowMs state then releaseLowest nowMs state output else (state, output)

/-- What `push_at` works on once it has the flow's entry at hand. -/
structure Work (T : Type*) where
  state : FlowState T
  pendingTotal : ℕ
  output : List T

namespace Work

/-- Apply `op` to the flow and take what it has released off the total. -/
def counted (w : Work T) (op : FlowState T → List T → FlowState T × List T) : Work T :=
  let r := op w.state w.output
  ⟨r.1, w.pendingTotal - (w.state.pending.length - r.1.pending.length), r.2⟩

/-- The end of `push_at`: the value joins the pending ones. -/
def store (sequence : BitVec 32) (value : T) (nowMs : ℕ) (w : Work T) : Work T :=
  let w : Work T := { w with
    state := { w.state with pending := w.state.pending ++ [⟨sequence, value⟩] }
    pendingTotal := w.pendingTotal + 1 }
  let w := if maxPendingTotal < w.pendingTotal then w.counted (releaseLowest nowMs) else w
  let w :=
    if w.state.gapStartedMs.isNone then
      { w with state := { w.state with gapStartedMs := some nowMs } }
    else w
  w.counted (releaseExpired nowMs)

/-- `push_at` once the flow's gap has been looked at. -/
def place (sequence : BitVec 32) (value : T) (nowMs : ℕ) (w : Work T) : Work T :=
  if sequence = w.state.expected then
    let w : Work T := { w with
      state := { w.state with expected := w.state.expected + 1, gapStartedMs := none }
      output := w.output ++ [value] }
    w.counted drainContiguous
  else if !isForward sequence w.state.expected
      || w.state.pending.any (·.sequence == sequence) then w
  else
    let w :=
      if w.state.pending.length = maxPendingPerFlow then w.counted (releaseLowest nowMs) else w
    if w.pendingTotal = maxPendingTotal then
      if w.state.pending.isEmpty then
        { w with
          state := { w.state with expected := sequence + 1, gapStartedMs := none }
          output := w.output ++ [value] }
      else (w.counted (releaseLowest nowMs)).store sequence value nowMs
    else w.store sequence value nowMs

def push (sequence : BitVec 32) (value : T) (nowMs : ℕ) (w : Work T) : Work T :=
  (w.counted (releaseExpired nowMs)).place sequence value nowMs

end Work

namespace FlowReassembler

/-- A full table that does not know the key forgets every flow. -/
def makeRoom (r : FlowReassembler T) (key : ReassemblyKey) : FlowReassembler T :=
  if r.flows.keys.length = maxTrackedFlows ∧ key ∉ r.flows then new else r

/-- The flow's entry, or the one `or_insert_with` would create. -/
def flow (r : FlowReassembler T) (key : ReassemblyKey) : FlowState T :=
  (r.flows.lookup key).getD FlowState.new

def pushAt (r : FlowReassembler T) (header : FrameHeader) (value : T) (nowMs : ℕ)
    (output : List T) : FlowReassembler T × List T :=
  let r := r.makeRoom header.key
  let w := Work.push header.sequence value nowMs ⟨r.flow header.key, r.pendingTotal, output⟩
  (⟨r.flows.insert header.key w.state, w.pendingTotal⟩, w.output)

end FlowReassembler

/-- One call of `push_at`, with the queue it is given. -/
structure Push (T : Type*) where
  header : FrameHeader
  value : T
  nowMs : ℕ
  output : List T

def step (r : FlowReassembler T) (p : Push T) : Option (FlowReassembler T) :=
  some (r.pushAt p.header p.value p.nowMs p.output).1

end Csqtt.FlowFrame
