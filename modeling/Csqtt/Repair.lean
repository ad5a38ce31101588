/-
Repairs of a stream and their acknowledgements.

A slot keeps the last repair sequence applied to its worker and the last one known to have
come up again.  The next repair compares the two: a worker that never came up after the one
before gets new credentials.  `apply_alive` raises the second number to the sequence it
carries; `mark_ready` stores the first number there, also when a later one is there already.

The three operations run one after another, so the exchange of `apply_repair` succeeds on
its first attempt.  A history lists the operations newest first.

* `movesForward_iff` — the acknowledgements of a history only move forward, and escalate as
  they should, exactly when no `mark_ready` comes while a later acknowledgement is known.
-/
import Csqtt.Demux

namespace Csqtt.Repair

open Demux

structure RepairApplyResult where
  restarts : ℕ
  credentialResets : ℕ
  deriving DecidableEq, Repr

/-- `fetch_add(1)` of a 64-bit counter. -/
def increment (counter : ℕ) : ℕ := (counter + 1) % 18446744073709551616

structure RepairSlot where
  restartGeneration : ℕ
  credentialGeneration : ℕ
  lastSequence : ℕ
  readySequence : ℕ
  deriving DecidableEq, Repr

namespace RepairSlot

def new : RepairSlot :=
  { restartGeneration := 0, credentialGeneration := 0, lastSequence := 0, readySequence := 0 }

def markReady (slot : RepairSlot) : RepairSlot :=
  { slot with readySequence := slot.lastSequence }

/-- The worker never came up after the last repair. -/
def unresolved (slot : RepairSlot) : Bool :=
  slot.lastSequence ≠ 0 && slot.readySequence < slot.lastSequence

/-- A repair that is newer than the last one. -/
def restart (slot : RepairSlot) (sequence : ℕ) : RepairSlot :=
  { slot with
    lastSequence := sequence
    credentialGeneration :=
      if slot.unresolved then increment slot.credentialGeneration else slot.credentialGeneration
    restartGeneration := increment slot.restartGeneration }

def applyRepair (slot : RepairSlot) (sequence : ℕ) : RepairSlot :=
  if sequence ≤ slot.lastSequence then slot else slot.restart sequence

def applyAlive (slot : RepairSlot) (sequence : ℕ) : RepairSlot :=
  { slot with readySequence := max slot.readySequence sequence }

/-- What a repair of this slot adds to the result. -/
def repairResult (slot : RepairSlot) (sequence : ℕ) : RepairApplyResult :=
  if sequence ≤ slot.lastSequence then { restarts := 0, credentialResets := 0 }
  else { restarts := 1, credentialResets := if slot.unresolved then 1 else 0 }

end RepairSlot

structure RepairState where
  slots : List RepairSlot
  deriving DecidableEq, Repr

namespace RepairState

/-- One slot for each worker, and one for the id zero that no worker has. -/
def new (desiredCount : ℕ) : RepairState :=
  { slots := List.replicate (desiredCount + 1) RepairSlot.new }

def slot (s : RepairState) (workerId : ℕ) : Option RepairSlot :=
  if workerId ≠ 0 then s.slots[workerId]? else none

/-- An operation on one slot; nothing without it. -/
def update (f : RepairSlot → RepairSlot) (s : RepairState) (workerId : ℕ) : RepairState :=
  match s.slot workerId with
  | none => s
  | some slot => { s with slots := s.slots.set workerId (f slot) }

def restartGeneration (s : RepairState) (workerId : ℕ) : ℕ :=
  ((s.slot workerId).map (·.restartGeneration)).getD 0

def credentialGeneration (s : RepairState) (workerId : ℕ) : ℕ :=
  ((s.slot workerId).map (·.credentialGeneration)).getD 0

def markReady (s : RepairState) (workerId : ℕ) : RepairState :=
  s.update RepairSlot.markReady workerId

/-- A turn of the loop of `apply_repair`. -/
def repairTurn (sequence : ℕ) (p : RepairState × RepairApplyResult) (workerId : ℕ) :
    RepairState × RepairApplyResult :=
  match p.1.slot workerId with
  | none => p
  | some slot =>
    let result := slot.repairResult sequence
    (p.1.update (·.applyRepair sequence) workerId,
      { restarts := p.2.restarts + result.restarts
        credentialResets := p.2.credentialResets + result.credentialResets })

def applyRepair (s : RepairState) (command : StreamRepairCommand) :
    RepairState × RepairApplyResult :=
  command.workerIds.foldl (repairTurn command.sequence)
    (s, { restarts := 0, credentialResets := 0 })

/-- A turn of the loop of `apply_alive`. -/
def aliveTurn (sequence : ℕ) (p : RepairState × ℕ) (workerId : ℕ) : RepairState × ℕ :=
  match p.1.slot workerId with
  | none => p
  | some _ => (p.1.update (·.applyAlive sequence) workerId, p.2 + 1)

def applyAlive (s : RepairState) (command : StreamRepairCommand) : RepairState × ℕ :=
  command.workerIds.foldl (aliveTurn command.sequence) (s, 0)

end RepairState

inductive Op where
  | markReady (workerId : ℕ)
  | applyRepair (command : StreamRepairCommand)
  | applyAlive (command : StreamRepairCommand)
  deriving DecidableEq, Repr

def RepairState.apply (s : RepairState) : Op → RepairState
  | .markReady workerId => s.markReady workerId
  | .applyRepair command => (s.applyRepair command).1
  | .applyAlive command => (s.applyAlive command).1

/-- The state after a history. -/
def after (desiredCount : ℕ) : List Op → RepairState
  | [] => RepairState.new desiredCount
  | op :: before => (after desiredCount before).apply op

/-! ### One slot -/

variable {s : RepairState} {slot : RepairSlot} {workerId desiredCount : ℕ}

/-- What an operation does to the slot of a worker. -/
def RepairSlot.apply (workerId : ℕ) (slot : RepairSlot) : Op → RepairSlot
  | .markReady id => if id = workerId then slot.markReady else slot
  | .applyRepair command =>
    if workerId ∈ command.workerIds then slot.applyRepair command.sequence else slot
  | .applyAlive command =>
    if workerId ∈ command.workerIds then slot.applyAlive command.sequence else slot

theorem slot_update (f : RepairSlot → RepairSlot) (s : RepairState) (id workerId : ℕ) :
    (s.update f id).slot workerId =
      if id = workerId then (s.slot workerId).map f else s.slot workerId := by
  by_cases hid : id = workerId
  · subst hid
    rw [if_pos rfl, RepairState.update]
    cases hslot : s.slot id with
    | none => exact hslot
    | some slot =>
      rw [RepairState.slot] at hslot ⊢
      by_cases hzero : id = 0
      · simp [hzero] at hslot
      · simp only [ne_eq, hzero, not_false_eq_true, if_true] at hslot ⊢
        have hlt : id < s.slots.length := (List.getElem?_eq_some_iff.mp hslot).1
        rw [List.getElem?_set_self hlt]
        rfl
  · rw [if_neg hid, RepairState.update]
    cases hslot : s.slot id with
    | none => rfl
    | some slot =>
      simp only [RepairState.slot, List.getElem?_set_ne hid]

/-- An operation that changes nothing the second time, on all workers of a list. -/
theorem slot_foldl_update {f : RepairSlot → RepairSlot} (hf : ∀ slot, f (f slot) = f slot)
    (ids : List ℕ) (s : RepairState) (workerId : ℕ) :
    (ids.foldl (RepairState.update f) s).slot workerId =
      if workerId ∈ ids then (s.slot workerId).map f else s.slot workerId := by
  induction ids generalizing s with
  | nil => rfl
  | cons id ids ih =>
    rw [List.foldl_cons, ih, slot_update]
    by_cases hid : id = workerId
    · subst hid
      -- an id that comes again finds its slot as the first time has left it
      by_cases hmem : id ∈ ids
      · simp [hmem, hf, Function.comp_def]
      · simp [hmem]
    · have hid' : ¬ workerId = id := fun h => hid h.symm
      simp [hid, hid']

theorem applyRepair_applyRepair (sequence : ℕ) (slot : RepairSlot) :
    (slot.applyRepair sequence).applyRepair sequence = slot.applyRepair sequence := by
  by_cases hold : sequence ≤ slot.lastSequence
  · simp only [RepairSlot.applyRepair, if_pos hold]
  · simp [RepairSlot.applyRepair, RepairSlot.restart, hold]

theorem applyAlive_applyAlive (sequence : ℕ) (slot : RepairSlot) :
    (slot.applyAlive sequence).applyAlive sequence = slot.applyAlive sequence := by
  simp [RepairSlot.applyAlive]

/-- The state after a turn, whatever has been counted. -/
theorem fst_repairTurn (sequence : ℕ) (p : RepairState × RepairApplyResult) (id : ℕ) :
    p.1.update (·.applyRepair sequence) id = (RepairState.repairTurn sequence p id).1 := by
  rw [RepairState.repairTurn]
  cases hslot : p.1.slot id with
  | none => simp [RepairState.update, hslot]
  | some slot => rfl

theorem fst_aliveTurn (sequence : ℕ) (p : RepairState × ℕ) (id : ℕ) :
    p.1.update (·.applyAlive sequence) id = (RepairState.aliveTurn sequence p id).1 := by
  rw [RepairState.aliveTurn]
  cases hslot : p.1.slot id with
  | none => simp [RepairState.update, hslot]
  | some slot => rfl

/-- Slots do not meet: an operation does to each what it does to it alone. -/
theorem slot_apply (s : RepairState) (op : Op) (workerId : ℕ) :
    (s.apply op).slot workerId = (s.slot workerId).map (RepairSlot.apply workerId · op) := by
  cases op with
  | markReady id =>
    rw [RepairState.apply, RepairState.markReady, slot_update]
    by_cases hid : id = workerId
    · simp only [RepairSlot.apply, if_pos hid]
    · simp [RepairSlot.apply, hid]
  | applyRepair command =>
    rw [RepairState.apply, RepairState.applyRepair,
      ← List.foldl_hom Prod.fst (fst_repairTurn command.sequence),
      slot_foldl_update (applyRepair_applyRepair command.sequence)]
    by_cases hmem : workerId ∈ command.workerIds
    · simp only [RepairSlot.apply, if_pos hmem]
    · simp [RepairSlot.apply, hmem]
  | applyAlive command =>
    rw [RepairState.apply, RepairState.applyAlive,
      ← List.foldl_hom Prod.fst (fst_aliveTurn command.sequence),
      slot_foldl_update (applyAlive_applyAlive command.sequence)]
    by_cases hmem : workerId ∈ command.workerIds
    · simp only [RepairSlot.apply, if_pos hmem]
    · simp [RepairSlot.apply, hmem]

/-- The slot of a worker after a history. -/
def slotAfter (workerId : ℕ) : List Op → RepairSlot
  | [] => RepairSlot.new
  | op :: before => (slotAfter workerId before).apply workerId op

theorem slot_after (hzero : workerId ≠ 0) (hcount : workerId ≤ desiredCount) (history : List Op) :
    (after desiredCount history).slot workerId = some (slotAfter workerId history) := by
  induction history with
  | nil =>
    have hlt : workerId < desiredCount + 1 := Nat.lt_succ_of_le hcount
    simp [after, RepairState.new, RepairState.slot, slotAfter, hzero, hlt]
  | cons op before ih => rw [after, slot_apply, ih, Option.map_some, slotAfter]

/-! ### What a history says -/

/-- The newest repair that names the worker; zero before the first. -/
def newest (workerId : ℕ) : List Op → ℕ
  | [] => 0
  | .applyRepair command :: before =>
    if workerId ∈ command.workerIds then max (newest workerId before) command.sequence
    else newest workerId before
  | .markReady _ :: before => newest workerId before
  | .applyAlive _ :: before => newest workerId before

/-- The repair names the worker and is newer than all before it. -/
def Applies (workerId : ℕ) (before : List Op) (command : StreamRepairCommand) : Prop :=
  workerId ∈ command.workerIds ∧ newest workerId before < command.sequence

instance (workerId : ℕ) (before : List Op) (command : StreamRepairCommand) :
    Decidable (Applies workerId before command) := inferInstanceAs (Decidable (_ ∧ _))

/-- A repair was applied to the worker, no `mark_ready` has come after it, and no alive with
its sequence or a later one has been seen. -/
def Unresolved (workerId : ℕ) (history : List Op) : Prop :=
  ∃ later command before, history = later ++ .applyRepair command :: before ∧
    Applies workerId before command ∧ .markReady workerId ∉ later ∧
    ∀ alive, .applyAlive alive ∈ history → workerId ∈ alive.workerIds →
      alive.sequence < command.sequence

/-- The operation is a repair that has to bring new credentials. -/
def Escalates (workerId : ℕ) (before : List Op) (op : Op) : Prop :=
  (∃ command, op = .applyRepair command ∧ Applies workerId before command) ∧
    Unresolved workerId before

/-- The sequences of the repairs that restart the worker. -/
def restarts (desiredCount workerId : ℕ) : List Op → List ℕ
  | [] => []
  | .applyRepair command :: before =>
    if (after desiredCount (.applyRepair command :: before)).restartGeneration workerId ≠
        (after desiredCount before).restartGeneration workerId then
      command.sequence :: restarts desiredCount workerId before
    else restarts desiredCount workerId before
  | .markReady _ :: before => restarts desiredCount workerId before
  | .applyAlive _ :: before => restarts desiredCount workerId before

/-- The sequences of the repairs that bring new credentials. -/
def resets (desiredCount workerId : ℕ) : List Op → List ℕ
  | [] => []
  | .applyRepair command :: before =>
    if (after desiredCount (.applyRepair command :: before)).credentialGeneration workerId ≠
        (after desiredCount before).credentialGeneration workerId then
      command.sequence :: resets desiredCount workerId before
    else resets desiredCount workerId before
  | .markReady _ :: before => resets desiredCount workerId before
  | .applyAlive _ :: before => resets desiredCount workerId before

def slotOf (desiredCount workerId : ℕ) (history : List Op) : RepairSlot :=
  ((after desiredCount history).slot workerId).getD RepairSlot.new

/-- One operation moves the acknowledgements of the worker forward only, restarts it for a
newer repair only, and brings new credentials as it should. -/
structure StepForward (desiredCount workerId : ℕ) (before : List Op) (op : Op) : Prop where
  last_le : (slotOf desiredCount workerId before).lastSequence ≤
    (slotOf desiredCount workerId (op :: before)).lastSequence
  ready_le : (slotOf desiredCount workerId before).readySequence ≤
    (slotOf desiredCount workerId (op :: before)).readySequence
  restarted : (∃ command, op = .applyRepair command ∧ Applies workerId before command) →
    (after desiredCount (op :: before)).restartGeneration workerId =
      increment ((after desiredCount before).restartGeneration workerId)
  not_restarted : (¬ ∃ command, op = .applyRepair command ∧ Applies workerId before command) →
    (after desiredCount (op :: before)).restartGeneration workerId =
      (after desiredCount before).restartGeneration workerId
  reset : Escalates workerId before op →
    (after desiredCount (op :: before)).credentialGeneration workerId =
      increment ((after desiredCount before).credentialGeneration workerId)
  not_reset : ¬ Escalates workerId before op →
    (after desiredCount (op :: before)).credentialGeneration workerId =
      (after desiredCount before).credentialGeneration workerId

/-- A history moves the worker forward. -/
structure MovesForward (desiredCount workerId : ℕ) (history : List Op) : Prop where
  step : ∀ op before, op :: before <:+ history → StepForward desiredCount workerId before op
  restarts_nodup : (restarts desiredCount workerId history).Nodup
  /-- Without one of its `mark_ready`s it would have had the same resets, and maybe more. -/
  extra : ∀ later id before, history = later ++ .markReady id :: before →
    (resets desiredCount workerId history).Sublist (resets desiredCount workerId (later ++ before))

/-- No `mark_ready` while an acknowledgement newer than the last repair is known. -/
def InOrder (desiredCount workerId : ℕ) (history : List Op) : Prop :=
  ∀ before, .markReady workerId :: before <:+ history →
    (slotOf desiredCount workerId before).readySequence ≤
      (slotOf desiredCount workerId before).lastSequence

/-! ### The last repair -/

section Slot

variable {history before : List Op} {op : Op} {command : StreamRepairCommand}

theorem slotOf_eq (hzero : workerId ≠ 0) (hcount : workerId ≤ desiredCount) (history : List Op) :
    slotOf desiredCount workerId history = slotAfter workerId history := by
  rw [slotOf, slot_after hzero hcount, Option.getD_some]

theorem restartGeneration_after (hzero : workerId ≠ 0) (hcount : workerId ≤ desiredCount)
    (history : List Op) : (after desiredCount history).restartGeneration workerId =
      (slotAfter workerId history).restartGeneration := by
  rw [RepairState.restartGeneration, slot_after hzero hcount, Option.map_some, Option.getD_some]

theorem credentialGeneration_after (hzero : workerId ≠ 0) (hcount : workerId ≤ desiredCount)
    (history : List Op) : (after desiredCount history).credentialGeneration workerId =
      (slotAfter workerId history).credentialGeneration := by
  rw [RepairState.credentialGeneration, slot_after hzero hcount, Option.map_some, Option.getD_some]

theorem lastSequence_slotAfter (workerId : ℕ) (history : List Op) :
    (slotAfter workerId history).lastSequence = newest workerId history := by
  induction history with
  | nil => rfl
  | cons op before ih =>
    cases op with
    | markReady id =>
      rw [slotAfter, newest, ← ih, RepairSlot.apply]
      split_ifs
      · rfl
      · rfl
    | applyRepair command =>
      rw [slotAfter, newest, ← ih, RepairSlot.apply]
      split_ifs
      · rw [RepairSlot.applyRepair]
        split_ifs with hold
        · exact (Nat.max_eq_left hold).symm
        · exact (Nat.max_eq_right (Nat.le_of_not_le hold)).symm
      · rfl
    | applyAlive command =>
      rw [slotAfter, newest, ← ih, RepairSlot.apply]
      split_ifs
      · rfl
      · rfl

theorem increment_ne (counter : ℕ) : increment counter ≠ counter := by
  rw [increment]
  omega

/-- The repair that the last sequence is from. -/
theorem exists_newest (h : newest workerId history ≠ 0) :
    ∃ later command before, history = later ++ .applyRepair command :: before ∧
      Applies workerId before command ∧ command.sequence = newest workerId history := by
  induction history with
  | nil => exact absurd rfl h
  | cons op before ih =>
    by_cases hsame : newest workerId (op :: before) = newest workerId before
    · rw [hsame] at h ⊢
      obtain ⟨later, command, earlier, rfl, happlies, hsequence⟩ := ih h
      exact ⟨op :: later, command, earlier, rfl, happlies, hsequence⟩
    · cases op with
      | markReady id => exact absurd rfl hsame
      | applyAlive command => exact absurd rfl hsame
      | applyRepair command =>
        rw [newest] at hsame h ⊢
        by_cases hmem : workerId ∈ command.workerIds
        · rw [if_pos hmem] at hsame ⊢
          refine ⟨[], command, before, rfl, ⟨hmem, ?_⟩, ?_⟩
          · omega
          · omega
        · exact absurd (if_neg hmem) hsame

theorem newest_le_append (workerId : ℕ) (later before : List Op) :
    newest workerId before ≤ newest workerId (later ++ before) := by
  induction later with
  | nil => exact Nat.le_refl _
  | cons op later ih =>
    cases op with
    | markReady id => exact ih
    | applyAlive command => exact ih
    | applyRepair command =>
      rw [List.cons_append, newest]
      split_ifs
      · exact Nat.le_trans ih (Nat.le_max_left _ _)
      · exact ih

/-! ### Acknowledgements -/

theorem InOrder.tail (h : InOrder desiredCount workerId (op :: before)) :
    InOrder desiredCount workerId before := by
  intro earlier hearlier
  exact h earlier (hearlier.trans (List.suffix_cons op before))

/-- What an operation makes of the second number of a slot. -/
theorem readySequence_apply (workerId : ℕ) (slot : RepairSlot) (op : Op) :
    (slot.apply workerId op).readySequence = slot.readySequence ∨
      (op = .markReady workerId ∧ (slot.apply workerId op).readySequence = slot.lastSequence) ∨
      ∃ alive, op = .applyAlive alive ∧ workerId ∈ alive.workerIds ∧
        (slot.apply workerId op).readySequence = max slot.readySequence alive.sequence := by
  cases op with
  | markReady id =>
    rw [RepairSlot.apply]
    split_ifs with hid
    · exact Or.inr (Or.inl ⟨by rw [hid], rfl⟩)
    · exact Or.inl rfl
  | applyRepair command =>
    left
    rw [RepairSlot.apply]
    split_ifs
    · rw [RepairSlot.applyRepair]
      split_ifs
      · rfl
      · rfl
    · rfl
  | applyAlive command =>
    rw [RepairSlot.apply]
    split_ifs with hmem
    · exact Or.inr (Or.inr ⟨command, rfl, hmem, rfl⟩)
    · exact Or.inl rfl

/-- The second number goes back in one case only. -/
theorem readySequence_le_apply_iff (workerId : ℕ) (slot : RepairSlot) (op : Op) :
    slot.readySequence ≤ (slot.apply workerId op).readySequence ↔
      (op = .markReady workerId → slot.readySequence ≤ slot.lastSequence) := by
  constructor
  · rintro h rfl
    rw [RepairSlot.apply, if_pos rfl] at h
    exact h
  · intro h
    rcases readySequence_apply workerId slot op with hsame | ⟨hop, hready⟩ | ⟨_, _, _, hready⟩
    · exact Nat.le_of_eq hsame.symm
    · rw [hready]
      exact h hop
    · rw [hready]
      exact Nat.le_max_left _ _

/-- The second number comes from a `mark_ready` or an alive of the history. -/
theorem readySequence_source (workerId : ℕ) (history : List Op) :
    (slotAfter workerId history).readySequence = 0 ∨
      (∃ alive, .applyAlive alive ∈ history ∧ workerId ∈ alive.workerIds ∧
        (slotAfter workerId history).readySequence = alive.sequence) ∨
      ∃ later before, history = later ++ .markReady workerId :: before ∧
        (slotAfter workerId history).readySequence = newest workerId before := by
  induction history with
  | nil => exact Or.inl rfl
  | cons op before ih =>
    -- what the state before the operation had, the history after it still shows
    have hkept : (slotAfter workerId (op :: before)).readySequence =
        (slotAfter workerId before).readySequence →
        (slotAfter workerId (op :: before)).readySequence = 0 ∨
          (∃ alive, .applyAlive alive ∈ op :: before ∧ workerId ∈ alive.workerIds ∧
            (slotAfter workerId (op :: before)).readySequence = alive.sequence) ∨
          ∃ later earlier, op :: before = later ++ .markReady workerId :: earlier ∧
            (slotAfter workerId (op :: before)).readySequence = newest workerId earlier := by
      intro hsame
      rw [hsame]
      rcases ih with hzero | ⟨alive, hmem, hids, hready⟩ | ⟨later, earlier, hhistory, hready⟩
      · exact Or.inl hzero
      · exact Or.inr (Or.inl ⟨alive, List.mem_cons_of_mem _ hmem, hids, hready⟩)
      · exact Or.inr (Or.inr ⟨op :: later, earlier, by rw [hhistory, List.cons_append], hready⟩)
    rcases readySequence_apply workerId (slotAfter workerId before) op with
      hsame | ⟨hop, hready⟩ | ⟨alive, hop, hids, hready⟩
    · exact hkept hsame
    · refine Or.inr (Or.inr ⟨[], before, by rw [hop, List.nil_append], ?_⟩)
      rw [← lastSequence_slotAfter]
      exact hready
    · rcases Nat.le_total alive.sequence (slotAfter workerId before).readySequence with hle | hle
      · rw [Nat.max_eq_left hle] at hready
        exact hkept hready
      · rw [Nat.max_eq_right hle] at hready
        exact Or.inr (Or.inl ⟨alive, by rw [hop]; exact List.mem_cons_self, hids, hready⟩)

/-- In order the second number never goes back. -/
theorem readySequence_le_append (hzero : workerId ≠ 0) (hcount : workerId ≤ desiredCount)
    {later : List Op} (h : InOrder desiredCount workerId (later ++ before)) :
    (slotAfter workerId before).readySequence ≤
      (slotAfter workerId (later ++ before)).readySequence := by
  induction later with
  | nil => exact Nat.le_refl _
  | cons op later ih =>
    have hstep : (slotAfter workerId (later ++ before)).readySequence ≤
        (slotAfter workerId (op :: (later ++ before))).readySequence := by
      refine (readySequence_le_apply_iff workerId _ op).mpr ?_
      rintro rfl
      have hready := h (later ++ before) List.suffix_rfl
      rw [slotOf_eq hzero hcount] at hready
      exact hready
    exact Nat.le_trans (ih h.tail) hstep

theorem newest_le_of_markReady (hzero : workerId ≠ 0) (hcount : workerId ≤ desiredCount)
    {later : List Op}
    (h : InOrder desiredCount workerId (later ++ .markReady workerId :: before)) :
    newest workerId before ≤
      (slotAfter workerId (later ++ .markReady workerId :: before)).readySequence := by
  have hstored : (slotAfter workerId (.markReady workerId :: before)).readySequence =
      newest workerId before := by
    rw [slotAfter, RepairSlot.apply, if_pos rfl]
    exact lastSequence_slotAfter workerId before
  rw [← hstored]
  exact readySequence_le_append hzero hcount h

theorem sequence_le_of_alive (hzero : workerId ≠ 0) (hcount : workerId ≤ desiredCount)
    (h : InOrder desiredCount workerId history) (hmem : .applyAlive command ∈ history)
    (hids : workerId ∈ command.workerIds) :
    command.sequence ≤ (slotAfter workerId history).readySequence := by
  obtain ⟨later, before, rfl⟩ := List.append_of_mem hmem
  have hstored : command.sequence ≤
      (slotAfter workerId (.applyAlive command :: before)).readySequence := by
    rw [slotAfter, RepairSlot.apply, if_pos hids]
    exact Nat.le_max_right _ _
  exact Nat.le_trans hstored (readySequence_le_append hzero hcount h)

/-- A `mark_ready` that is not after a repair is before it. -/
theorem newest_le_of_not_mem {later last first : List Op} (hmark : .markReady workerId ∉ later)
    (h : later ++ .applyRepair command :: before = last ++ .markReady workerId :: first) :
    newest workerId first ≤ newest workerId before := by
  rcases List.append_eq_append_iff.mp h with ⟨rest, hlast, hrest⟩ | ⟨rest, hlater, hrest⟩
  · cases rest with
    | nil => simp at hrest
    | cons op rest =>
      rw [List.cons_append, List.cons.injEq] at hrest
      rw [hrest.2]
      exact newest_le_append workerId rest (.markReady workerId :: first)
  · cases rest with
    | nil => simp at hrest
    | cons op rest =>
      rw [List.cons_append, List.cons.injEq] at hrest
      exfalso
      refine hmark ?_
      rw [hlater, ← hrest.1]
      exact List.mem_append_right _ List.mem_cons_self

/-- In order the comparison of the two numbers says what the history says. -/
theorem unresolved_iff (hzero : workerId ≠ 0) (hcount : workerId ≤ desiredCount)
    (h : InOrder desiredCount workerId history) :
    (slotAfter workerId history).unresolved = true ↔ Unresolved workerId history := by
  have hslot : (slotAfter workerId history).unresolved = true ↔
      newest workerId history ≠ 0 ∧
        (slotAfter workerId history).readySequence < newest workerId history := by
    rw [RepairSlot.unresolved, lastSequence_slotAfter]
    simp
  rw [hslot]
  constructor
  · rintro ⟨hnewest, hready⟩
    obtain ⟨later, command, before, hhistory, happlies, hsequence⟩ := exists_newest hnewest
    refine ⟨later, command, before, hhistory, happlies, ?_, ?_⟩
    · -- a `mark_ready` after it would have stored its sequence
      intro hmark
      obtain ⟨last, first, rfl⟩ := List.append_of_mem hmark
      rw [List.append_assoc, List.cons_append] at hhistory
      rw [hhistory] at h
      have hstored := newest_le_of_markReady hzero hcount h
      have hnamed : command.sequence ≤
          newest workerId (first ++ .applyRepair command :: before) := by
        refine Nat.le_trans ?_ (newest_le_append workerId first _)
        rw [newest, if_pos happlies.1]
        exact Nat.le_max_right _ _
      rw [← hhistory] at hstored
      omega
    · intro alive hmem hids
      have hseen := sequence_le_of_alive hzero hcount h hmem hids
      omega
  · rintro ⟨later, command, before, hhistory, happlies, hmark, halive⟩
    have hnewest : command.sequence ≤ newest workerId history := by
      rw [hhistory]
      refine Nat.le_trans ?_ (newest_le_append workerId later _)
      rw [newest, if_pos happlies.1]
      exact Nat.le_max_right _ _
    have hpositive : 0 < command.sequence := Nat.lt_of_le_of_lt (Nat.zero_le _) happlies.2
    refine ⟨by omega, ?_⟩
    -- whatever the second number comes from is older than the repair
    rcases readySequence_source workerId history with
      hready | ⟨alive, hmem, hids, hready⟩ | ⟨last, first, hsplit, hready⟩
    · omega
    · have hlt := halive alive hmem hids
      omega
    · have hfirst := newest_le_of_not_mem hmark (hhistory.symm.trans hsplit)
      have hlt := happlies.2
      omega

/-! ### One step -/

theorem apply_of_applies (h : Applies workerId before command) :
    (slotAfter workerId before).apply workerId (.applyRepair command) =
      (slotAfter workerId before).restart command.sequence := by
  have hnew : ¬ command.sequence ≤ (slotAfter workerId before).lastSequence := by
    rw [lastSequence_slotAfter]
    exact Nat.not_le_of_lt h.2
  rw [RepairSlot.apply, if_pos h.1, RepairSlot.applyRepair, if_neg hnew]

/-- Only a newer repair touches the generations. -/
theorem generations_of_not_applies
    (h : ¬ ∃ command, op = .applyRepair command ∧ Applies workerId before command) :
    ((slotAfter workerId before).apply workerId op).restartGeneration =
        (slotAfter workerId before).restartGeneration ∧
      ((slotAfter workerId before).apply workerId op).credentialGeneration =
        (slotAfter workerId before).credentialGeneration := by
  cases op with
  | markReady id =>
    rw [RepairSlot.apply]
    split_ifs
    · exact ⟨rfl, rfl⟩
    · exact ⟨rfl, rfl⟩
  | applyAlive command =>
    rw [RepairSlot.apply]
    split_ifs
    · exact ⟨rfl, rfl⟩
    · exact ⟨rfl, rfl⟩
  | applyRepair command =>
    rw [RepairSlot.apply]
    split_ifs with hmem
    · have hold : command.sequence ≤ (slotAfter workerId before).lastSequence := by
        rw [lastSequence_slotAfter]
        by_contra hnew
        exact h ⟨command, rfl, hmem, Nat.lt_of_not_le hnew⟩
      rw [RepairSlot.applyRepair, if_pos hold]
      exact ⟨rfl, rfl⟩
    · exact ⟨rfl, rfl⟩

theorem newest_le_cons (workerId : ℕ) (op : Op) (before : List Op) :
    newest workerId before ≤ newest workerId (op :: before) :=
  newest_le_append workerId [op] before

/-- A step is as it should be exactly when the second number does not go back. -/
theorem stepForward_iff (hzero : workerId ≠ 0) (hcount : workerId ≤ desiredCount)
    (h : InOrder desiredCount workerId before) :
    StepForward desiredCount workerId before op ↔
      (op = .markReady workerId →
        (slotOf desiredCount workerId before).readySequence ≤
          (slotOf desiredCount workerId before).lastSequence) := by
  have hready := readySequence_le_apply_iff workerId (slotAfter workerId before) op
  constructor
  · intro hstep
    have hle := hstep.ready_le
    simp only [slotOf_eq hzero hcount] at hle ⊢
    exact hready.mp hle
  · intro hop
    simp only [slotOf_eq hzero hcount] at hop
    have hrestart : ∀ command, op = .applyRepair command → Applies workerId before command →
        slotAfter workerId (op :: before) =
          (slotAfter workerId before).restart command.sequence := by
      rintro command rfl happlies
      exact apply_of_applies happlies
    refine ⟨?_, ?_, ?_, ?_, ?_, ?_⟩
    · simp only [slotOf_eq hzero hcount, lastSequence_slotAfter]
      exact newest_le_cons workerId op before
    · simp only [slotOf_eq hzero hcount]
      exact hready.mpr hop
    · rintro ⟨command, hcommand, happlies⟩
      rw [restartGeneration_after hzero hcount, restartGeneration_after hzero hcount,
        hrestart command hcommand happlies]
      rfl
    · intro hnot
      rw [restartGeneration_after hzero hcount, restartGeneration_after hzero hcount]
      exact (generations_of_not_applies hnot).1
    · rintro ⟨⟨command, hcommand, happlies⟩, hunresolved⟩
      rw [credentialGeneration_after hzero hcount, credentialGeneration_after hzero hcount,
        hrestart command hcommand happlies]
      exact if_pos ((unresolved_iff hzero hcount h).mpr hunresolved)
    · intro hnot
      rw [credentialGeneration_after hzero hcount, credentialGeneration_after hzero hcount]
      by_cases happlies : ∃ command, op = .applyRepair command ∧ Applies workerId before command
      · obtain ⟨command, hcommand, hnewer⟩ := happlies
        rw [hrestart command hcommand hnewer]
        refine if_neg ?_
        intro hunresolved
        exact hnot ⟨⟨command, hcommand, hnewer⟩, (unresolved_iff hzero hcount h).mp hunresolved⟩
      · exact (generations_of_not_applies happlies).2

/-! ### Restarts -/

/-- A restart is for a repair newer than all before, so no sequence restarts twice. -/
theorem mem_restarts_le (hzero : workerId ≠ 0) (hcount : workerId ≤ desiredCount) {sequence : ℕ}
    (h : sequence ∈ restarts desiredCount workerId history) :
    sequence ≤ newest workerId history := by
  induction history with
  | nil => exact absurd h List.not_mem_nil
  | cons op before ih =>
    cases op with
    | markReady id => exact ih h
    | applyAlive command => exact ih h
    | applyRepair command =>
      have hbefore := newest_le_cons workerId (.applyRepair command) before
      rw [restarts] at h
      split_ifs at h with hrestart
      · rcases List.mem_cons.mp h with rfl | h
        · -- a repair that restarts is newer than all before it
          rw [restartGeneration_after hzero hcount,
            restartGeneration_after hzero hcount] at hrestart
          by_contra hold
          refine hrestart (generations_of_not_applies ?_).1
          rintro ⟨_, ⟨⟩, happlies⟩
          rw [newest, if_pos happlies.1] at hold
          exact hold (Nat.le_max_right _ _)
        · exact Nat.le_trans (ih h) hbefore
      · exact Nat.le_trans (ih h) hbefore

theorem restarts_nodup (hzero : workerId ≠ 0) (hcount : workerId ≤ desiredCount)
    (history : List Op) : (restarts desiredCount workerId history).Nodup := by
  induction history with
  | nil => exact List.nodup_nil
  | cons op before ih =>
    cases op with
    | markReady id => exact ih
    | applyAlive command => exact ih
    | applyRepair command =>
      rw [restarts]
      split_ifs with hrestart
      · refine List.nodup_cons.mpr ⟨?_, ih⟩
        intro hagain
        rw [restartGeneration_after hzero hcount, restartGeneration_after hzero hcount] at hrestart
        refine hrestart (generations_of_not_applies ?_).1
        rintro ⟨_, ⟨⟩, happlies⟩
        exact Nat.not_le_of_lt happlies.2 (mem_restarts_le hzero hcount hagain)
      · exact ih

/-! ### One more `mark_ready` -/

theorem resets_applyRepair (hzero : workerId ≠ 0) (hcount : workerId ≤ desiredCount)
    (command : StreamRepairCommand) (before : List Op) :
    resets desiredCount workerId (.applyRepair command :: before) =
      if Applies workerId before command ∧ (slotAfter workerId before).unresolved = true then
        command.sequence :: resets desiredCount workerId before
      else resets desiredCount workerId before := by
  rw [resets, credentialGeneration_after hzero hcount, credentialGeneration_after hzero hcount,
    slotAfter]
  by_cases happlies : Applies workerId before command
  · rw [apply_of_applies happlies, RepairSlot.restart]
    by_cases hunresolved : (slotAfter workerId before).unresolved = true
    · simp only [if_pos hunresolved, if_pos (And.intro happlies hunresolved)]
      exact if_pos (increment_ne _)
    · have hnot : ¬ (Applies workerId before command ∧
          (slotAfter workerId before).unresolved = true) := fun h => hunresolved h.2
      rw [if_neg hnot]
      simp [hunresolved]
  · have hold : ¬ ∃ newer, Op.applyRepair command = .applyRepair newer ∧
        Applies workerId before newer := by
      rintro ⟨_, ⟨⟩, h⟩
      exact happlies h
    rw [(generations_of_not_applies hold).2, if_neg (not_not_intro rfl),
      if_neg fun h => happlies h.1]

/-- Two slots of a worker, the first with an acknowledgement at least as new. -/
structure Ahead (slot slot' : RepairSlot) : Prop where
  last_eq : slot.lastSequence = slot'.lastSequence
  ready_le : slot'.readySequence ≤ slot.readySequence

theorem Ahead.apply {slot slot' : RepairSlot} (h : Ahead slot slot') (op : Op) :
    Ahead (slot.apply workerId op) (slot'.apply workerId op) := by
  have hlast := h.last_eq
  have hready := h.ready_le
  cases op with
  | markReady id =>
    rw [RepairSlot.apply, RepairSlot.apply]
    split_ifs
    · exact ⟨hlast, Nat.le_of_eq hlast.symm⟩
    · exact h
  | applyAlive command =>
    rw [RepairSlot.apply, RepairSlot.apply]
    split_ifs
    · refine ⟨hlast, ?_⟩
      simp only [RepairSlot.applyAlive]
      omega
    · exact h
  | applyRepair command =>
    rw [RepairSlot.apply, RepairSlot.apply]
    split_ifs
    · rw [RepairSlot.applyRepair, RepairSlot.applyRepair, hlast]
      split_ifs
      · exact h
      · exact ⟨rfl, hready⟩
    · exact h

theorem Ahead.unresolved {slot slot' : RepairSlot} (h : Ahead slot slot')
    (hunresolved : slot.unresolved = true) : slot'.unresolved = true := by
  have hlast := h.last_eq
  have hready := h.ready_le
  simp only [RepairSlot.unresolved, Bool.and_eq_true, decide_eq_true_eq] at hunresolved ⊢
  omega

/-- What comes after keeps the two histories abreast, so only the one without the
`mark_ready` may reset more. -/
theorem resets_sublist (hzero : workerId ≠ 0) (hcount : workerId ≤ desiredCount)
    {id : ℕ} (h : Ahead (slotAfter workerId (.markReady id :: before)) (slotAfter workerId before))
    (later : List Op) :
    Ahead (slotAfter workerId (later ++ .markReady id :: before))
        (slotAfter workerId (later ++ before)) ∧
      (resets desiredCount workerId (later ++ .markReady id :: before)).Sublist
        (resets desiredCount workerId (later ++ before)) := by
  induction later with
  | nil => exact ⟨h, List.Sublist.refl _⟩
  | cons op later ih =>
    obtain ⟨hahead, hsublist⟩ := ih
    refine ⟨hahead.apply op, ?_⟩
    cases op with
    | markReady id => exact hsublist
    | applyAlive command => exact hsublist
    | applyRepair command =>
      rw [List.cons_append, List.cons_append, resets_applyRepair hzero hcount,
        resets_applyRepair hzero hcount]
      have hnewest : newest workerId (later ++ .markReady id :: before) =
          newest workerId (later ++ before) := by
        rw [← lastSequence_slotAfter, ← lastSequence_slotAfter]
        exact hahead.last_eq
      -- a reset of the history with the `mark_ready` is one of the other as well
      by_cases hreset : Applies workerId (later ++ .markReady id :: before) command ∧
          (slotAfter workerId (later ++ .markReady id :: before)).unresolved = true
      · have happlies : Applies workerId (later ++ before) command :=
          ⟨hreset.1.1, hnewest ▸ hreset.1.2⟩
        rw [if_pos hreset, if_pos ⟨happlies, hahead.unresolved hreset.2⟩]
        exact hsublist.cons_cons _
      · rw [if_neg hreset]
        split_ifs
        · exact hsublist.cons _
        · exact hsublist

/-! ### Every history -/

/-- The worker moves forward in a history exactly when no `mark_ready` of it comes while an
acknowledgement newer than its last repair is known. -/
theorem movesForward_worker_iff (hzero : workerId ≠ 0) (hcount : workerId ≤ desiredCount)
    (history : List Op) :
    MovesForward desiredCount workerId history ↔ InOrder desiredCount workerId history := by
  constructor
  · intro h before hbefore
    have hready := (h.step _ before hbefore).ready_le
    simp only [slotOf_eq hzero hcount] at hready ⊢
    exact (readySequence_le_apply_iff workerId _ _).mp hready rfl
  · intro h
    refine ⟨?_, restarts_nodup hzero hcount history, ?_⟩
    · intro op before hsuffix
      have hbefore : InOrder desiredCount workerId before := by
        intro earlier hearlier
        exact h earlier (hearlier.trans ((List.suffix_cons op before).trans hsuffix))
      refine (stepForward_iff hzero hcount hbefore).mpr ?_
      rintro rfl
      exact h before hsuffix
    · rintro later id before rfl
      refine (resets_sublist hzero hcount ?_ later).2
      rw [slotAfter, RepairSlot.apply]
      split_ifs with hid
      · subst hid
        have hready := h before (List.suffix_append later _)
        rw [slotOf_eq hzero hcount] at hready
        exact ⟨rfl, hready⟩
      · exact ⟨rfl, Nat.le_refl _⟩

/-- Acknowledgements move forward in a history exactly when every `mark_ready` comes in
order. -/
theorem movesForward_iff (desiredCount : ℕ) (history : List Op) :
    (∀ workerId, workerId ≠ 0 → workerId ≤ desiredCount →
        MovesForward desiredCount workerId history) ↔
      ∀ workerId, workerId ≠ 0 → workerId ≤ desiredCount →
        InOrder desiredCount workerId history := by
  constructor
  · intro h workerId hzero hcount
    exact (movesForward_worker_iff hzero hcount history).mp (h workerId hzero hcount)
  · intro h workerId hzero hcount
    exact (movesForward_worker_iff hzero hcount history).mpr (h workerId hzero hcount)

/-- The worker came up for the fifth repair before it was told of it. -/
def earlyAlive : List Op :=
  [.applyAlive { sequence := 5, desiredCount := 1, workerIds := [1] },
    .applyRepair { sequence := 1, desiredCount := 1, workerIds := [1] }]

/-- The fifth and the sixth repair. -/
def nextRepairs : List Op :=
  [.applyRepair { sequence := 6, desiredCount := 1, workerIds := [1] },
    .applyRepair { sequence := 5, desiredCount := 1, workerIds := [1] }]

/-- A `mark_ready` takes the acknowledgement back, and the sixth repair resets for it. -/
theorem mark_ready_goes_back :
    ¬ MovesForward 1 1 (nextRepairs ++ .markReady 1 :: earlyAlive) ∧
      resets 1 1 (nextRepairs ++ .markReady 1 :: earlyAlive) = [6] ∧
      resets 1 1 (nextRepairs ++ earlyAlive) = [] := by
  refine ⟨?_, by decide, by decide⟩
  intro h
  have hready := (h.step (.markReady 1) earlyAlive (List.suffix_append nextRepairs _)).ready_le
  exact absurd hready (by decide)

end Slot

end Csqtt.Repair
