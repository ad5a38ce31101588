/-
The receiver of an allocation and the failures that are to reach it.

`DriverShared::fail` is three accesses: it puts the reason into the watched snapshot,
raises `terminal_present`, and wakes the driver.  `TurnReceiver::recv` looks at the flag
first and waits for the snapshot last.  Any number of callers fail, the driver and the
owner go on, and the receiver takes its steps in between.

* `reason_unseen` — the snapshot wakes the receiver before the flag is up, and it goes
  back to sleep for good;
* `fail_reaches_receiver` — nothing else keeps a failure from the receiver: if no look at
  the flag falls between the two accesses with the new snapshot already seen
  (`looksTooEarly`), no run leaves it asleep.
-/
import Csqtt.TransitionRun
import Csqtt.TurnDriver
import Mathlib.Logic.Function.Basic

open Transition

namespace Csqtt.Turn

/-- Where a call of `fail` is. -/
inductive FailPhase where
  | waiting
  /-- `closing` was set. -/
  | turnedAway
  | passed (reason : Terminal)
  /-- It was the first: its reason is in the snapshot. -/
  | inserted
  /-- `terminal_present` is up, the driver is not woken yet. -/
  | raised
  | returned

/-- What `recv` gives. -/
inductive RecvResult (α : Type*) where
  | packet (packet : α)
  | failed (reason : Terminal)
  /-- "TURN allocation closed". -/
  | closed

/-- Where the receiver is. -/
inductive RecvPc (α : Type*) where
  /-- `take_receiver` has not been called. -/
  | absent
  /-- Outside of `recv`. -/
  | idle (last : Option (RecvResult α))
  /-- At the head of the loop. -/
  | check
  | popFirst
  | popSecond
  /-- The three branches of `select!`, in their order. -/
  | pollProtected
  | pollChanged
  | pollIncoming
  | parked

structure Receiving (α : Type*) where
  terminal : Option Terminal := none
  /-- The version of the snapshot. -/
  version : ℕ := 0
  terminalPresent : Bool := false
  closing : Bool := false
  protectedQueue : List α := []
  /-- The permit of `protected_notify`. -/
  protectedPermit : Bool := false
  incoming : List α := []
  /-- The driver has dropped its end of `incoming`. -/
  incomingClosed : Bool := false
  fails : ℕ → FailPhase := fun _ => .waiting
  pc : RecvPc α := .absent
  /-- The version that the receiver has seen. -/
  seen : ℕ := 0

/-- `PROTECTED_INCOMING`. -/
def protectedIncoming : ℕ := 32

inductive ReceiveLabel (α : Type*) where
  /-- `fail` is called and looks at `closing`. -/
  | fail (i : ℕ) (reason : Terminal)
  | modify (i : ℕ)
  | raise (i : ℕ)
  | wake (i : ℕ)
  /-- Some other `send_modify`. -/
  | update
  | requestCleanup
  | stash (packet : α)
  | deliver (packet : α)
  | dropIncoming
  | takeReceiver
  | recv
  /-- The future of `recv` is dropped. -/
  | cancel
  /-- The next step of the receiver. -/
  | drive

namespace Receiving

variable {α : Type*}

/-- `DriverShared::terminal`. -/
def reason (s : Receiving α) : Option Terminal := if s.terminalPresent then s.terminal else none

/-- `send_modify` in `fail`. -/
def modify (s : Receiving α) (i : ℕ) (reason : Terminal) : Receiving α :=
  { s with
    terminal := s.terminal.or (some reason)
    version := s.version + 1
    fails := Function.update s.fails i (if s.terminal.isNone then .inserted else .returned) }

def stashProtected (s : Receiving α) (packet : α) : Receiving α :=
  { s with
    protectedQueue :=
      (if protectedIncoming ≤ s.protectedQueue.length then s.protectedQueue.tail
        else s.protectedQueue) ++ [packet]
    protectedPermit := true }

/-- Some branch of `select!` is ready. -/
def ready (s : Receiving α) : Bool :=
  s.protectedPermit || s.version ≠ s.seen || !s.incoming.isEmpty || s.incomingClosed

def popProtected (s : Receiving α) (next : RecvPc α) : Receiving α :=
  match s.protectedQueue with
  | packet :: rest => { s with protectedQueue := rest, pc := .idle (some (.packet packet)) }
  | [] => { s with pc := next }

/-- One step of `recv`. -/
def drive (s : Receiving α) : Option (Receiving α) :=
  match s.pc with
  | .absent | .idle _ => none
  | .check =>
    match s.reason with
    | some reason => some { s with pc := .idle (some (.failed reason)) }
    | none => some { s with pc := .popFirst }
  | .popFirst => some (s.popProtected .popSecond)
  | .popSecond => some (s.popProtected .pollProtected)
  | .pollProtected =>
    if s.protectedPermit then some { s with protectedPermit := false, pc := .check }
    else some { s with pc := .pollChanged }
  | .pollChanged =>
    if s.version ≠ s.seen then some { s with seen := s.version, pc := .check }
    else some { s with pc := .pollIncoming }
  | .pollIncoming =>
    match s.incoming with
    | packet :: rest => some { s with incoming := rest, pc := .idle (some (.packet packet)) }
    | [] =>
      if s.incomingClosed then
        some { s with pc := .idle (some (s.reason.elim .closed .failed)) }
      else some { s with pc := .parked }
  | .parked => if s.ready then some { s with pc := .pollProtected } else none

def step (s : Receiving α) : ReceiveLabel α → Option (Receiving α)
  | .fail i reason =>
    match s.fails i with
    | .waiting => some { s with
        fails := Function.update s.fails i (if s.closing then .turnedAway else .passed reason) }
    | _ => none
  | .modify i =>
    match s.fails i with
    | .passed reason => some (s.modify i reason)
    | _ => none
  | .raise i =>
    match s.fails i with
    | .inserted => some { s with
        terminalPresent := true, fails := Function.update s.fails i .raised }
    | _ => none
  | .wake i =>
    match s.fails i with
    | .raised => some { s with fails := Function.update s.fails i .returned }
    | _ => none
  | .update => some { s with version := s.version + 1 }
  | .requestCleanup => some { s with closing := true }
  | .stash packet => some (s.stashProtected packet)
  | .deliver packet => if s.incomingClosed then none else some { s with
      incoming := s.incoming ++ [packet] }
  | .dropIncoming => some { s with incomingClosed := true }
  | .takeReceiver =>
    match s.pc with
    | .absent => some { s with pc := .idle none, seen := s.version }
    | _ => none
  | .recv =>
    match s.pc with
    | .idle _ => some { s with pc := .check }
    | _ => none
  | .cancel =>
    match s.pc with
    | .absent => none
    | _ => some { s with pc := .idle none }
  | .drive => s.drive

/-- A failure has been put in place for good, and the receiver sleeps with nothing left
to wake it. -/
def Lost (s : Receiving α) : Prop :=
  (∃ i, s.fails i = .returned) ∧ s.pc = .parked ∧ s.seen = s.version ∧ s.incoming = [] ∧
    s.protectedPermit = false

/-- The receiver looks at the flag while a reason is in the snapshot, the snapshot has
been seen and the flag is not up. -/
def looksTooEarly (s : Receiving α) (l : ReceiveLabel α) : Bool :=
  match l, s.pc with
  | .drive, .check => s.terminal.isSome && !s.terminalPresent && s.seen == s.version
  | _, _ => false

/-! ### What keeps the receiver awake -/

/-- The call has been behind its `send_modify`. -/
def Put : FailPhase → Prop
  | .inserted | .raised | .returned => True
  | _ => False

/-- The receiver has looked at the flag, and will not look again before it waits. -/
def Looked : RecvPc α → Prop
  | .absent | .idle _ | .check => False
  | _ => True

/-- Once a reason is in place, a receiver on its way to sleep has not seen the snapshot. -/
structure Wakeful (s : Receiving α) : Prop where
  seen_le : s.seen ≤ s.version
  put : ∀ i, Put (s.fails i) → s.terminal.isSome = true
  flagged : s.terminalPresent = true → s.terminal.isSome = true
  unseen : s.terminal.isSome = true → Looked s.pc → s.seen ≠ s.version

theorem Wakeful.not_lost {s : Receiving α} (h : Wakeful s) : ¬ Lost s := by
  rintro ⟨⟨i, hi⟩, hpc, hseen, -⟩
  refine h.unseen (h.put i ?_) ?_ hseen
  · rw [hi]
    trivial
  · rw [hpc]
    trivial

theorem put_update {fails : ℕ → FailPhase} {i : ℕ} {phase : FailPhase} {P : Prop}
    (h : ∀ j, Put (fails j) → P) (hi : Put phase → P) (j : ℕ)
    (hj : Put (Function.update fails i phase j)) : P := by
  have hall : ∀ j, Put (Function.update fails i phase j) → P :=
    (Function.forall_update_iff fails fun _ phase => Put phase → P).mpr ⟨hi, fun j _ => h j⟩
  exact hall j hj

/-- The receiver's step.  Only a look at the flag brings it on its way to sleep, and the
only unsafe look is the one that is too early. -/
theorem Wakeful.drive {s s' : Receiving α} (h : Wakeful s) (hok : s.looksTooEarly .drive = false)
    (hstep : s.drive = some s') : Wakeful s' := by
  obtain ⟨hle, hput, hflag, hunseen⟩ := h
  unfold Receiving.drive at hstep
  cases hpc : s.pc with
  | absent => simp [hpc] at hstep
  | idle => simp [hpc] at hstep
  | check =>
    simp only [hpc] at hstep
    split at hstep <;> obtain rfl := Option.some_inj.mp hstep
    · exact ⟨hle, hput, hflag, fun _ => False.elim⟩
    · rename_i hnone
      refine ⟨hle, hput, hflag, fun hsome _ hseen => ?_⟩
      -- with the flag up the reason would have been found
      have hdown : s.terminalPresent = false := by
        rw [Bool.eq_false_iff]
        intro hup
        rw [reason, if_pos hup] at hnone
        rw [hnone] at hsome
        cases hsome
      simp only at hseen
      simp [looksTooEarly, hpc, hsome, hdown, hseen] at hok
  | popFirst =>
    rw [hpc] at hunseen
    simp only [hpc] at hstep
    obtain rfl := Option.some_inj.mp hstep
    unfold popProtected
    split
    · exact ⟨hle, hput, hflag, fun _ => False.elim⟩
    · exact ⟨hle, hput, hflag, hunseen⟩
  | popSecond =>
    rw [hpc] at hunseen
    simp only [hpc] at hstep
    obtain rfl := Option.some_inj.mp hstep
    unfold popProtected
    split
    · exact ⟨hle, hput, hflag, fun _ => False.elim⟩
    · exact ⟨hle, hput, hflag, hunseen⟩
  | pollProtected =>
    rw [hpc] at hunseen
    simp only [hpc] at hstep
    split at hstep <;> obtain rfl := Option.some_inj.mp hstep
    · exact ⟨hle, hput, hflag, fun _ => False.elim⟩
    · exact ⟨hle, hput, hflag, hunseen⟩
  | pollChanged =>
    rw [hpc] at hunseen
    simp only [hpc] at hstep
    split at hstep <;> obtain rfl := Option.some_inj.mp hstep
    · exact ⟨Nat.le_refl _, hput, hflag, fun _ => False.elim⟩
    · exact ⟨hle, hput, hflag, hunseen⟩
  | pollIncoming =>
    rw [hpc] at hunseen
    simp only [hpc] at hstep
    split at hstep
    · obtain rfl := Option.some_inj.mp hstep
      exact ⟨hle, hput, hflag, fun _ => False.elim⟩
    · split at hstep <;> obtain rfl := Option.some_inj.mp hstep
      · exact ⟨hle, hput, hflag, fun _ => False.elim⟩
      · exact ⟨hle, hput, hflag, hunseen⟩
  | parked =>
    rw [hpc] at hunseen
    simp only [hpc] at hstep
    split at hstep
    · obtain rfl := Option.some_inj.mp hstep
      exact ⟨hle, hput, hflag, hunseen⟩
    · cases hstep

/-- A `send_modify` leaves a snapshot that nobody has seen. -/
theorem Wakeful.bump {s : Receiving α} (h : Wakeful s) : s.seen ≠ s.version + 1 := by
  have hle := h.seen_le
  omega

theorem Wakeful.step {s s' : Receiving α} {l : ReceiveLabel α} (h : Wakeful s)
    (hok : s.looksTooEarly l = false) (hstep : s.step l = some s') : Wakeful s' := by
  have hbump := h.bump
  obtain ⟨hle, hput, hflag, hunseen⟩ := id h
  cases l with
  | drive => exact h.drive hok hstep
  | fail i r =>
    simp only [Receiving.step] at hstep
    split at hstep
    · obtain rfl := Option.some_inj.mp hstep
      refine ⟨hle, put_update hput fun hi => ?_, hflag, hunseen⟩
      split at hi <;> exact hi.elim
    · cases hstep
  | modify i =>
    simp only [Receiving.step] at hstep
    split at hstep
    · rename_i r hi
      obtain rfl := Option.some_inj.mp hstep
      -- whoever was first, a reason is there from now on
      have hsome : (s.terminal.or (some r)).isSome = true := by
        cases s.terminal <;> rfl
      exact ⟨Nat.le_succ_of_le hle, fun _ _ => hsome, fun _ => hsome, fun _ _ => hbump⟩
    · cases hstep
  | raise i =>
    simp only [Receiving.step] at hstep
    split at hstep
    · rename_i hi
      obtain rfl := Option.some_inj.mp hstep
      have hsome : s.terminal.isSome = true := hput i (by rw [hi]; trivial)
      exact ⟨hle, fun _ _ => hsome, fun _ => hsome, hunseen⟩
    · cases hstep
  | wake i =>
    simp only [Receiving.step] at hstep
    split at hstep
    · rename_i hi
      obtain rfl := Option.some_inj.mp hstep
      have hsome : s.terminal.isSome = true := hput i (by rw [hi]; trivial)
      exact ⟨hle, fun _ _ => hsome, hflag, hunseen⟩
    · cases hstep
  | update =>
    obtain rfl := Option.some_inj.mp hstep
    exact ⟨Nat.le_succ_of_le hle, hput, hflag, fun _ _ => hbump⟩
  | requestCleanup =>
    obtain rfl := Option.some_inj.mp hstep
    exact ⟨hle, hput, hflag, hunseen⟩
  | stash p =>
    obtain rfl := Option.some_inj.mp hstep
    exact ⟨hle, hput, hflag, hunseen⟩
  | deliver p =>
    simp only [Receiving.step] at hstep
    split at hstep
    · cases hstep
    · obtain rfl := Option.some_inj.mp hstep
      exact ⟨hle, hput, hflag, hunseen⟩
  | dropIncoming =>
    obtain rfl := Option.some_inj.mp hstep
    exact ⟨hle, hput, hflag, hunseen⟩
  | takeReceiver =>
    simp only [Receiving.step] at hstep
    split at hstep
    · obtain rfl := Option.some_inj.mp hstep
      exact ⟨Nat.le_refl _, hput, hflag, fun _ => False.elim⟩
    · cases hstep
  | recv =>
    simp only [Receiving.step] at hstep
    split at hstep
    · obtain rfl := Option.some_inj.mp hstep
      exact ⟨hle, hput, hflag, fun _ => False.elim⟩
    · cases hstep
  | cancel =>
    simp only [Receiving.step] at hstep
    split at hstep
    · cases hstep
    · obtain rfl := Option.some_inj.mp hstep
      exact ⟨hle, hput, hflag, fun _ => False.elim⟩

theorem Wakeful.start : Wakeful ({} : Receiving α) :=
  ⟨Nat.le_refl 0, fun _ => False.elim, nofun, nofun⟩

/-- In a run in which no look at the flag is too early, a failure never leaves the
receiver asleep. -/
theorem fail_reaches_receiver (labels : List (ReceiveLabel α))
    (hok : Admits step (fun s l => s.looksTooEarly l = false) ({} : Receiving α) labels) :
    Always step (fun s => ¬ Lost s) ({} : Receiving α) labels :=
  (always_of_admits (fun _ _ _ h hok hstep => h.step hok hstep) Wakeful.start hok).mono
    fun _ h => h.not_lost

/-- The receiver sleeps, then an uninterrupted call of `fail`. -/
def sleepThenFail : List (ReceiveLabel ℕ) :=
  [.takeReceiver, .recv] ++ List.replicate 6 .drive ++
    [.fail 0 .rebindExhausted, .modify 0, .raise 0, .wake 0] ++ List.replicate 3 .drive

theorem sleepThenFail_awake : Always step (fun s => ¬ Lost s) {} sleepThenFail :=
  fail_reaches_receiver sleepThenFail (by decide)

/-- The receiver is woken by the snapshot and looks for the flag before it is up. -/
def wokenBetween : List (ReceiveLabel ℕ) :=
  [.takeReceiver, .recv] ++ List.replicate 6 .drive ++
    [.fail 0 .rebindExhausted, .modify 0] ++ List.replicate 9 .drive ++ [.raise 0, .wake 0]

theorem reason_unseen : ∃ s : Receiving ℕ, run step {} wokenBetween = some s ∧ Lost s ∧
    s.terminal.isSome = true ∧ s.drive = none :=
  ⟨_, rfl, ⟨⟨0, rfl⟩, rfl, rfl, rfl, rfl⟩, rfl, rfl⟩

end Receiving

end Csqtt.Turn
