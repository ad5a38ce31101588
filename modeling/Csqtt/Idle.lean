/-
Idle scale-down: the process-wide atomics and the calls that write them.

`enter`, `exit` and `note_path_lost` are sequences of single atomic accesses, so
a call in progress is modelled by the access it makes next together with its
locals (`Call`), and `callStep` performs that one access.  `State` lets any
number of threads be inside such calls at the same time; a run is an arbitrary
interleaving.  `notify_waiters` and the log lines touch none of this memory.

`State` also remembers, as ghosts, the order of the effective swaps of `ACTIVE`
and which of them wrote `LIMIT` and `DECLARED` last: the two stores of a call
are separate from its swap, and that order is what can go wrong.
-/
import Csqtt.TransitionRun
import Mathlib.Logic.Function.Basic
import Mathlib.Data.List.Basic
import Mathlib.Algebra.Group.Nat.Defs

open Transition

namespace Csqtt.Idle

/-- `usize::MAX`, the `LIMIT` that parks nobody. -/
def usizeMax : ℕ := 2 ^ 64 - 1

/-- `JOINED_SLOTS`. -/
def joinedSlots : ℕ := 127

/-- `u64::saturating_add`. -/
def saturatingAdd (a b : BitVec 64) : BitVec 64 :=
  if a.toNat + b.toNat < 2 ^ 64 then a + b else BitVec.allOnes 64

structure Memory where
  limit : ℕ
  active : Bool
  totalWorkers : ℕ
  declared : ℕ
  genOffset : BitVec 64
  announce : BitVec 64
  packetWindowCount : ℕ
  synWindowCount : ℕ
  joined : ℕ → BitVec 64

namespace Memory

/-- The statics before the first engine start. -/
def initial : Memory := ⟨usizeMax, false, 0, 0, 0, 0, 0, 0, fun _ => 0⟩

/-- `reset`: engine (re)start, everything unparked. -/
def reset (m : Memory) (totalWorkers : ℕ) : Memory :=
  { m with
    totalWorkers, declared := totalWorkers, limit := usizeMax, active := false,
    genOffset := 0, announce := 0, joined := fun _ => 0 }

def declaredCount (m : Memory) : ℕ :=
  match m.declared with
  | 0 => m.totalWorkers
  | n => n

def generation (m : Memory) (base : BitVec 64) : BitVec 64 := saturatingAdd base m.genOffset

/-- `allows`: keepers are the lowest ids. -/
def allows (m : Memory) (workerId : ℕ) : Bool := workerId ≤ m.limit

def notePathJoined (m : Memory) (workerId : ℕ) (offset : BitVec 64) : Memory :=
  if joinedSlots ≤ workerId ∨ workerId = 0 then m
  else { m with joined := Function.update m.joined workerId (saturatingAdd offset 1) }

end Memory

/-- A call in progress, named by the atomic access it makes next. -/
inductive Call where
  | enterLoadTotal (keep : ℕ)
  | enterSwap (keep : ℕ)
  | enterStoreLimit (keep : ℕ)
  | enterStoreDeclared (keep : ℕ)
  | enterBumpGeneration
  | enterBumpAnnounce
  | enterClearPackets
  | enterClearSyns
  | exitSwap
  | exitStoreLimit
  | exitLoadTotal
  | exitStoreDeclared (total : ℕ)
  | exitBumpAnnounce
  | lostLoadLimit (workerId : ℕ)
  | lostLoadJoined (workerId : ℕ)
  | lostLoadGeneration (workerId : ℕ) (joined : BitVec 64)
  | lostCompareExchange (workerId : ℕ) (current : BitVec 64)
  | lostClearSlot (workerId : ℕ)
  | lostBumpAnnounce
  deriving DecidableEq, Repr

/-- The calls a thread can start. -/
def enter (keep : ℕ) : Call := .enterLoadTotal keep
def exit : Call := .exitSwap
def notePathLost (workerId : ℕ) : Call := .lostLoadLimit workerId

def Call.IsEntry (c : Call) : Prop :=
  (∃ keep, c = enter keep) ∨ c = exit ∨ ∃ w, c = notePathLost w

instance : DecidablePred Call.IsEntry := fun c =>
  match c with
  | .enterLoadTotal keep => isTrue (.inl ⟨keep, rfl⟩)
  | .exitSwap => isTrue (.inr (.inl rfl))
  | .lostLoadLimit w => isTrue (.inr (.inr ⟨w, rfl⟩))
  | .enterSwap _ | .enterStoreLimit _ | .enterStoreDeclared _ | .enterBumpGeneration
  | .enterBumpAnnounce | .enterClearPackets | .enterClearSyns | .exitStoreLimit
  | .exitLoadTotal | .exitStoreDeclared _ | .exitBumpAnnounce | .lostLoadJoined _
  | .lostLoadGeneration _ _ | .lostCompareExchange _ _ | .lostClearSlot _
  | .lostBumpAnnounce => isFalse (by simp [Call.IsEntry, enter, exit, notePathLost])

/-- One atomic access of a call; `none` when the call has returned. -/
def callStep (m : Memory) : Call → Memory × Option Call
  | .enterLoadTotal keep =>
    if keep = 0 ∨ m.totalWorkers = 0 ∨ m.totalWorkers ≤ keep then (m, none)
    else (m, some (.enterSwap keep))
  | .enterSwap keep =>
    ({ m with active := true }, if m.active then none else some (.enterStoreLimit keep))
  | .enterStoreLimit keep => ({ m with limit := keep }, some (.enterStoreDeclared keep))
  | .enterStoreDeclared keep => ({ m with declared := keep }, some .enterBumpGeneration)
  | .enterBumpGeneration => ({ m with genOffset := m.genOffset + 1 }, some .enterBumpAnnounce)
  | .enterBumpAnnounce => ({ m with announce := m.announce + 1 }, some .enterClearPackets)
  | .enterClearPackets => ({ m with packetWindowCount := 0 }, some .enterClearSyns)
  | .enterClearSyns => ({ m with synWindowCount := 0 }, none)
  | .exitSwap => ({ m with active := false }, if m.active then some .exitStoreLimit else none)
  | .exitStoreLimit => ({ m with limit := usizeMax }, some .exitLoadTotal)
  | .exitLoadTotal => (m, some (.exitStoreDeclared m.totalWorkers))
  | .exitStoreDeclared total => ({ m with declared := total }, some .exitBumpAnnounce)
  | .exitBumpAnnounce => ({ m with announce := m.announce + 1 }, none)
  | .lostLoadLimit w =>
    (m, if m.allows w ∧ w < joinedSlots then some (.lostLoadJoined w) else none)
  | .lostLoadJoined w =>
    (m, if m.joined w = 0 then none else some (.lostLoadGeneration w (m.joined w)))
  | .lostLoadGeneration w joined =>
    (m, if joined - 1 ≠ m.genOffset then none else some (.lostCompareExchange w m.genOffset))
  | .lostCompareExchange w current =>
    if m.genOffset = current then
      ({ m with genOffset := saturatingAdd current 1 }, some (.lostClearSlot w))
    else (m, none)
  | .lostClearSlot w =>
    ({ m with joined := Function.update m.joined w 0 }, some .lostBumpAnnounce)
  | .lostBumpAnnounce => ({ m with announce := m.announce + 1 }, none)

/-- An effective swap of `ACTIVE`, and what its call stores afterwards. -/
inductive Swap where
  | enter (keep : ℕ)
  | exit
  deriving DecidableEq, Repr

def Swap.active : Swap → Bool
  | .enter _ => true
  | .exit => false

def Swap.limit : Swap → ℕ
  | .enter keep => keep
  | .exit => usizeMax

def Swap.declared (total : ℕ) : Swap → ℕ
  | .enter keep => keep
  | .exit => total

/-- The swap that the next access of the call makes, if it is effective. -/
def swapOf (m : Memory) : Call → Option Swap
  | .enterSwap keep => if m.active then none else some (.enter keep)
  | .exitSwap => if m.active then some .exit else none
  | _ => none

structure State where
  memory : Memory
  call : ℕ → Option Call
  /-- Ghost: the effective swaps in their order; the first one stands for `reset`. -/
  swaps : List Swap
  /-- Ghost: the position in `swaps` of the swap of the call a thread is in. -/
  ticket : ℕ → ℕ
  /-- Ghost: whose call stored `LIMIT` last. -/
  limitBy : ℕ
  /-- Ghost: whose call stored `DECLARED` last. -/
  declaredBy : ℕ

/-- The state right after `reset total`, no call in progress. -/
def State.afterReset (total : ℕ) : State :=
  ⟨Memory.initial.reset total, fun _ => none, [.exit], fun _ => 0, 0, 0⟩

inductive Label where
  | start (thread : ℕ) (call : Call)
  | advance (thread : ℕ)
  deriving DecidableEq, Repr

/-- Thread `t` makes the access `c` that it is about to make. -/
def State.access (s : State) (t : ℕ) (c : Call) : State where
  memory := (callStep s.memory c).1
  call := Function.update s.call t (callStep s.memory c).2
  swaps :=
    match swapOf s.memory c with
    | some w => s.swaps ++ [w]
    | none => s.swaps
  ticket :=
    match swapOf s.memory c with
    | some _ => Function.update s.ticket t s.swaps.length
    | none => s.ticket
  limitBy :=
    match c with
    | .enterStoreLimit _ | .exitStoreLimit => s.ticket t
    | _ => s.limitBy
  declaredBy :=
    match c with
    | .enterStoreDeclared _ | .exitStoreDeclared _ => s.ticket t
    | _ => s.declaredBy

def step (s : State) : Label → Option State
  | .start t c =>
    if s.call t = none ∧ c.IsEntry then
      some { s with call := Function.update s.call t (some c) }
    else none
  | .advance t => (s.call t).map (s.access t)

/-- No `enter`, `exit` or `note_path_lost` is in progress. -/
def Quiescent (s : State) : Prop := ∀ t, s.call t = none

/-- What the statics say once nobody is writing them: everybody is allowed and
declared, or both are the keep count of the last `enter`. -/
def Consistent (total : ℕ) (s : State) : Prop :=
  Quiescent s →
    if s.memory.active then
      ∃ keep, s.swaps.getLast? = some (.enter keep) ∧ s.memory.limit = keep ∧
        s.memory.declared = keep
    else s.memory.limit = usizeMax ∧ s.memory.declared = total

def enterAlone (t keep : ℕ) : List Label :=
  .start t (enter keep) :: List.replicate 8 (.advance t)

/-- An `enter` that nobody interferes with. -/
theorem run_enter {s : State} (t keep : ℕ) (hcall : s.call t = none)
    (hkeep : 0 < keep) (htotal : keep < s.memory.totalWorkers) (hactive : s.memory.active = false) :
    run step s (enterAlone t keep) = some
      { memory := { s.memory with
          active := true, limit := keep, declared := keep, genOffset := s.memory.genOffset + 1,
          announce := s.memory.announce + 1, packetWindowCount := 0, synWindowCount := 0 }
        call := s.call
        swaps := s.swaps ++ [.enter keep]
        ticket := Function.update s.ticket t s.swaps.length
        limitBy := s.swaps.length
        declaredBy := s.swaps.length } := by
  have hentry : (Call.enterLoadTotal keep).IsEntry := .inl ⟨keep, rfl⟩
  have hwork : ¬ (keep = 0 ∨ s.memory.totalWorkers = 0 ∨ s.memory.totalWorkers ≤ keep) := by omega
  have hback : Function.update s.call t none = s.call := by
    rw [← hcall, Function.update_eq_self]
  simp [enterAlone, List.replicate, step, hcall, hentry, State.access, callStep, swapOf, enter, hwork,
    hactive, hback]

end Csqtt.Idle
