/-
Epochs of a packet queue.

The word `state` of a queue holds an epoch and a bit that says whether the queue is active.
A sender loads it and tags its packet with the epoch; a receiver that resumes the queue
begins a new epoch, empties the queue and makes it active.  A sender may sleep between its
load and its push while the queue is suspended and resumed many times, so the receiver
looks at the tag of every packet it takes.

The steps here are the single accesses to `state`, `receiver_open` and the queue.  A run
counts the first stores of `resume`, and every packet carries the count at its sender's
load; neither is seen by the code.

* `returned_in_epoch` — a packet that `try_recv` returns was loaded in the epoch that the
  queue is in, up to a multiple of `2 ^ 63` epochs;
* `calls_refine_fifo` — calls that do not overlap see a bounded queue of packets.
-/
import Csqtt.TransitionRun
import Mathlib.Logic.Function.Basic
import Mathlib.Algebra.Group.Nat.Defs

namespace Csqtt.QueueEpoch

variable {ι α : Type*}

/-! ### The word -/

/-- `state & QUEUE_ACTIVE != 0`. -/
def isActive (state : ℕ) : Bool := state % 2 = 1

/-- `state >> 1`. -/
def epochOf (state : ℕ) : ℕ := state / 2

/-- `epoch << 1`, in a word of 64 bits. -/
def inactiveWord (epoch : ℕ) : ℕ := epoch * 2 % 2 ^ 64

/-- `(epoch << 1) | QUEUE_ACTIVE`. -/
def activeWord (epoch : ℕ) : ℕ := inactiveWord epoch + 1

/-- `state & !QUEUE_ACTIVE`. -/
def suspendedWord (state : ℕ) : ℕ := state - state % 2

/-- `previous.saturating_add(1)`. -/
def nextEpoch (previous : ℕ) : ℕ := min (previous + 1) (2 ^ 64 - 1)

/-! ### The steps -/

structure Entry (α : Type*) where
  packet : α
  epoch : ℕ
  /-- How many resumes had begun when its sender loaded the state. -/
  born : ℕ
  deriving DecidableEq

/-- What a sender does next. -/
inductive Sender (α : Type*) where
  | idle
  /-- To load the state. -/
  | opened (force : Bool) (packet : α)
  /-- To push. -/
  | loaded (force : Bool) (entry : Entry α)
  deriving DecidableEq

/-- What the receiver does next. -/
inductive Receiver (α : Type*) where
  | idle
  /-- In `try_recv`, to pop. -/
  | trying
  /-- To compare what it has popped with the state. -/
  | checking (entry : Entry α)
  /-- In `resume`, to store the new epoch. -/
  | resuming (epoch : ℕ)
  /-- In `suspend`, to store the state without its bit. -/
  | suspending (state : ℕ)
  /-- In `purge`; after it to activate this epoch, if any. -/
  | purging (resumed : Option ℕ)
  /-- In `resume`, to store the epoch with the bit. -/
  | activating (epoch : ℕ)
  deriving DecidableEq

/-- What a call returns. -/
inductive Outcome (α : Type*) where
  /-- Of a send: false when the packet is given back. -/
  | sent (accepted : Bool)
  | received (packet : Option α)
  | done
  deriving DecidableEq

/-- A packet that `try_recv` has returned, and how many resumes had begun then. -/
structure Returned (α : Type*) where
  entry : Entry α
  resumes : ℕ
  deriving DecidableEq

structure State (ι α : Type*) where
  capacity : ℕ
  state : ℕ
  receiverOpen : Bool
  queue : List (Entry α)
  senders : ι → Sender α
  receiver : Receiver α
  /-- How many resumes have begun. -/
  resumes : ℕ
  returned : List (Returned α)
  /-- The outcomes of the calls, the newest first. -/
  outcomes : List (Outcome α)

inductive Event (ι α : Type*) where
  /-- `try_send` or `force_send` is called, and looks at `receiver_open`. -/
  | send (i : ι) (force : Bool) (packet : α)
  /-- The sender's next step. -/
  | sender (i : ι)
  | tryRecv
  | suspend
  | resume
  | purge
  /-- The receiver's next step. -/
  | receiver
  /-- The receiver is dropped. -/
  | close

namespace State

/-- `packet_channel`. -/
def start (ι : Type*) {α : Type*} (capacity : ℕ) (active : Bool) : State ι α where
  capacity := max capacity 1
  state := if active then 1 else 0
  receiverOpen := true
  queue := []
  senders := fun _ => .idle
  receiver := .idle
  resumes := 0
  returned := []
  outcomes := []

def full (s : State ι α) : Bool := s.capacity ≤ s.queue.length

def finish (s : State ι α) (outcome : Outcome α) : State ι α :=
  { s with receiver := .idle, outcomes := outcome :: s.outcomes }

/-- The receiver's step. -/
def receive (s : State ι α) : Option (State ι α) :=
  match s.receiver with
  | .idle => none
  | .trying =>
    match s.queue with
    | [] => some (s.finish (.received none))
    | entry :: queue => some { s with queue, receiver := .checking entry }
  | .checking entry =>
    if isActive s.state && entry.epoch = epochOf s.state then
      some { s.finish (.received (some entry.packet)) with
        returned := { entry, resumes := s.resumes } :: s.returned }
    else some { s with receiver := .trying }
  | .resuming epoch =>
    some { s with
      state := inactiveWord epoch
      resumes := s.resumes + 1
      receiver := .purging (some epoch) }
  | .suspending state => some { s with state := suspendedWord state, receiver := .purging none }
  | .purging resumed =>
    match s.queue, resumed with
    | _ :: queue, _ => some { s with queue }
    | [], none => some (s.finish .done)
    | [], some epoch => some { s with receiver := .activating epoch }
  | .activating epoch => some ({ s with state := activeWord epoch }.finish .done)

/-- The receiver begins a call. -/
def call (s : State ι α) (receiver : Receiver α) : Option (State ι α) :=
  match s.receiver with
  | .idle => some { s with receiver }
  | _ => none

variable [DecidableEq ι]

def setSender (s : State ι α) (i : ι) (sender : Sender α) : State ι α :=
  { s with senders := Function.update s.senders i sender }

/-- The sender is through. -/
def reply (s : State ι α) (i : ι) (accepted : Bool) : State ι α :=
  { s.setSender i .idle with outcomes := .sent accepted :: s.outcomes }

/-- `force_push` of a full queue drops its oldest packet. -/
def push (s : State ι α) (entry : Entry α) : State ι α :=
  { s with queue := (if s.full then s.queue.tail else s.queue) ++ [entry] }

/-- The step of a sender. -/
def senderStep (s : State ι α) (i : ι) : Option (State ι α) :=
  match s.senders i with
  | .idle => none
  | .opened force packet =>
    if isActive s.state then
      some (s.setSender i (.loaded force { packet, epoch := epochOf s.state, born := s.resumes }))
    else some (s.reply i false)
  | .loaded force entry =>
    if !force && s.full then some (s.reply i false) else some ((s.push entry).reply i true)

def step (s : State ι α) : Event ι α → Option (State ι α)
  | .send i force packet =>
    match s.senders i with
    | .idle =>
      if s.receiverOpen then some (s.setSender i (.opened force packet))
      else some (s.reply i false)
    | _ => none
  | .sender i => s.senderStep i
  | .tryRecv => s.call .trying
  | .suspend => s.call (.suspending s.state)
  | .resume => s.call (.resuming (nextEpoch (epochOf s.state)))
  | .purge => s.call (.purging none)
  | .receiver => s.receive
  | .close => (s.call .idle).map fun s => { s with receiverOpen := false }

end State

open State

/-! ### Epochs -/

/-- The word is that of this many resumes, with the bit or without it. -/
def WordOf (resumes state : ℕ) : Prop :=
  state = 2 * resumes % 2 ^ 64 ∨ state = 2 * resumes % 2 ^ 64 + 1

/-- The tag is the epoch of the load. -/
structure Born (resumes : ℕ) (entry : Entry α) : Prop where
  epoch_eq : entry.epoch = entry.born % 2 ^ 63
  born_le : entry.born ≤ resumes

/-- What the receiver keeps over its steps; nobody else stores to the state. -/
def InStep (resumes state : ℕ) : Receiver α → Prop
  | .idle | .trying | .purging none => True
  | .checking entry => Born resumes entry
  | .resuming epoch => epoch = resumes % 2 ^ 63 + 1
  | .suspending loaded => loaded = state
  | .purging (some epoch) | .activating epoch => inactiveWord epoch = 2 * resumes % 2 ^ 64

structure Tagged (s : State ι α) : Prop where
  word : WordOf s.resumes s.state
  queue : ∀ entry ∈ s.queue, Born s.resumes entry
  senders : ∀ i force entry, s.senders i = .loaded force entry → Born s.resumes entry
  receiver : InStep s.resumes s.state s.receiver
  returned : ∀ r ∈ s.returned,
    r.entry.born ≤ r.resumes ∧ r.entry.born % 2 ^ 63 = r.resumes % 2 ^ 63

variable {s t : State ι α} {i : ι} {entry : Entry α} {resumes state : ℕ} {e : Event ι α}

theorem epochOf_word (h : WordOf resumes state) : epochOf state = resumes % 2 ^ 63 := by
  rw [epochOf]
  rcases h with rfl | rfl
  · omega
  · omega

theorem suspended_word (h : WordOf resumes state) :
    suspendedWord state = 2 * resumes % 2 ^ 64 := by
  rw [suspendedWord]
  rcases h with rfl | rfl
  · omega
  · omega

theorem inactiveWord_next (h : WordOf resumes state) :
    nextEpoch (epochOf state) = resumes % 2 ^ 63 + 1 := by
  rw [nextEpoch, epochOf_word h]
  omega

theorem inactiveWord_resumed (resumes : ℕ) :
    inactiveWord (resumes % 2 ^ 63 + 1) = 2 * (resumes + 1) % 2 ^ 64 := by
  rw [inactiveWord]
  omega

theorem Born.mono {resumes' : ℕ} (h : Born resumes entry) (hle : resumes ≤ resumes') :
    Born resumes' entry := ⟨h.epoch_eq, Nat.le_trans h.born_le hle⟩

theorem tagged_start (capacity : ℕ) (active : Bool) :
    Tagged (start ι capacity active : State ι α) := by
  refine ⟨?_, ?_, ?_, trivial, ?_⟩
  · cases active
    · exact Or.inl rfl
    · exact Or.inr rfl
  · intro entry hentry
    exact absurd hentry List.not_mem_nil
  · intro i force entry hloaded
    exact absurd hloaded (by simp [start])
  · intro r hr
    exact absurd hr List.not_mem_nil

theorem Tagged.receive (h : Tagged s) (hstep : s.receive = some t) : Tagged t := by
  obtain ⟨hword, hqueue, hsenders, hreceiver, hreturned⟩ := h
  rw [State.receive] at hstep
  cases hphase : s.receiver with
  | idle => simp [hphase] at hstep
  | trying =>
    cases hq : s.queue with
    | nil =>
      simp only [hphase, hq, Option.some.injEq] at hstep
      rw [← hstep]
      exact ⟨hword, hqueue, hsenders, trivial, hreturned⟩
    | cons entry queue =>
      simp only [hphase, hq, Option.some.injEq] at hstep
      rw [hq] at hqueue
      rw [← hstep]
      refine ⟨hword, ?_, hsenders, hqueue entry List.mem_cons_self, hreturned⟩
      intro other hother
      exact hqueue other (List.mem_cons_of_mem _ hother)
  | checking entry =>
    rw [hphase] at hreceiver
    simp only [hphase] at hstep
    split_ifs at hstep with hepoch
    · rw [← Option.some.inj hstep]
      refine ⟨hword, hqueue, hsenders, trivial, ?_⟩
      intro r hr
      rcases List.mem_cons.mp hr with rfl | hr
      · -- the tag is the epoch of the word, which nobody has changed since the check
        rw [Bool.and_eq_true, decide_eq_true_eq] at hepoch
        refine ⟨hreceiver.born_le, ?_⟩
        rw [← hreceiver.epoch_eq, hepoch.2]
        exact epochOf_word hword
      · exact hreturned r hr
    · rw [← Option.some.inj hstep]
      exact ⟨hword, hqueue, hsenders, trivial, hreturned⟩
  | resuming epoch =>
    rw [hphase] at hreceiver
    simp only [hphase, Option.some.injEq] at hstep
    -- a new epoch begins here; the tags so far are older
    have hresumed : inactiveWord epoch = 2 * (s.resumes + 1) % 2 ^ 64 := by
      rw [show epoch = s.resumes % 2 ^ 63 + 1 from hreceiver]
      exact inactiveWord_resumed s.resumes
    rw [← hstep]
    refine ⟨Or.inl hresumed, ?_, ?_, hresumed, hreturned⟩
    · intro entry hentry
      exact (hqueue entry hentry).mono (Nat.le_succ _)
    · intro i force entry hloaded
      exact (hsenders i force entry hloaded).mono (Nat.le_succ _)
  | suspending loaded =>
    rw [hphase] at hreceiver
    simp only [hphase, Option.some.injEq] at hstep
    rw [← hstep]
    refine ⟨Or.inl ?_, hqueue, hsenders, trivial, hreturned⟩
    -- nobody else stores to the state, so what was loaded is still there
    rw [show loaded = s.state from hreceiver]
    exact suspended_word hword
  | purging resumed =>
    rw [hphase] at hreceiver
    cases hq : s.queue with
    | nil =>
      rw [hq] at hqueue
      cases resumed with
      | none =>
        simp only [hphase, hq, Option.some.injEq] at hstep
        rw [← hstep]
        refine ⟨hword, ?_, hsenders, trivial, hreturned⟩
        rw [show (s.finish .done).queue = s.queue from rfl, hq]
        exact hqueue
      | some epoch =>
        simp only [hphase, hq, Option.some.injEq] at hstep
        rw [← hstep]
        exact ⟨hword, hqueue, hsenders, hreceiver, hreturned⟩
    | cons entry queue =>
      simp only [hphase, hq, Option.some.injEq] at hstep
      rw [hq] at hqueue
      rw [← hstep]
      refine ⟨hword, ?_, hsenders, ?_, hreturned⟩
      · intro other hother
        exact hqueue other (List.mem_cons_of_mem _ hother)
      · exact hreceiver
  | activating epoch =>
    rw [hphase] at hreceiver
    simp only [hphase, Option.some.injEq] at hstep
    rw [← hstep]
    refine ⟨Or.inr ?_, hqueue, hsenders, trivial, hreturned⟩
    show activeWord epoch = 2 * s.resumes % 2 ^ 64 + 1
    rw [activeWord, show inactiveWord epoch = 2 * s.resumes % 2 ^ 64 from hreceiver]

theorem Tagged.call (h : Tagged s) (receiver : Receiver α)
    (hreceiver : InStep s.resumes s.state receiver) (hstep : s.call receiver = some t) :
    Tagged t := by
  rw [State.call] at hstep
  split at hstep
  · rw [← Option.some.inj hstep]
    exact ⟨h.word, h.queue, h.senders, hreceiver, h.returned⟩
  · exact absurd hstep (by simp)

theorem Tagged.push (h : Tagged s) (hentry : Born s.resumes entry) : Tagged (s.push entry) := by
  refine ⟨h.word, ?_, h.senders, h.receiver, h.returned⟩
  intro other hother
  rw [State.push] at hother
  rcases List.mem_append.mp hother with hother | hother
  · split_ifs at hother
    · exact h.queue other (List.mem_of_mem_tail hother)
    · exact h.queue other hother
  · rw [List.mem_singleton.mp hother]
    exact hentry

section Senders

variable [DecidableEq ι]

theorem senders_setSender (s : State ι α) (i : ι) (sender : Sender α) :
    (s.setSender i sender).senders = Function.update s.senders i sender := rfl

/-- A sender that holds no packet to push. -/
theorem Tagged.setSender (h : Tagged s) (i : ι) {sender : Sender α}
    (hsender : ∀ force entry, sender = .loaded force entry → Born s.resumes entry) :
    Tagged (s.setSender i sender) := by
  refine ⟨h.word, h.queue, ?_, h.receiver, h.returned⟩
  refine (Function.forall_update_iff s.senders fun _ sender => ∀ force entry,
    sender = .loaded force entry → Born s.resumes entry).mpr ⟨hsender, ?_⟩
  intro j _
  exact h.senders j

theorem Tagged.reply (h : Tagged s) (i : ι) (accepted : Bool) : Tagged (s.reply i accepted) := by
  have hidle : Tagged (s.setSender i .idle) := h.setSender i (by simp)
  exact ⟨hidle.word, hidle.queue, hidle.senders, hidle.receiver, hidle.returned⟩

theorem Tagged.senderStep (h : Tagged s) (hstep : s.senderStep i = some t) : Tagged t := by
  rw [State.senderStep] at hstep
  cases hsender : s.senders i with
  | idle => simp [hsender] at hstep
  | opened force packet =>
    simp only [hsender] at hstep
    split_ifs at hstep
    · rw [← Option.some.inj hstep]
      refine h.setSender i ?_
      rintro _ _ ⟨⟩
      exact ⟨epochOf_word h.word, Nat.le_refl _⟩
    · rw [← Option.some.inj hstep]
      exact h.reply i false
  | loaded force entry =>
    simp only [hsender] at hstep
    split_ifs at hstep
    · rw [← Option.some.inj hstep]
      exact h.reply i false
    · rw [← Option.some.inj hstep]
      exact (h.push (h.senders i force entry hsender)).reply i true

theorem Tagged.step (h : Tagged s) (hstep : s.step e = some t) : Tagged t := by
  cases e with
  | send i force packet =>
    rw [State.step] at hstep
    split at hstep
    · split_ifs at hstep
      · rw [← Option.some.inj hstep]
        exact h.setSender i (by simp)
      · rw [← Option.some.inj hstep]
        exact h.reply i false
    · exact absurd hstep (by simp)
  | sender i => exact h.senderStep hstep
  | tryRecv => exact h.call .trying trivial hstep
  | suspend => exact h.call (.suspending s.state) rfl hstep
  | resume => exact h.call (.resuming _) (inactiveWord_next h.word) hstep
  | purge => exact h.call (.purging none) trivial hstep
  | receiver => exact h.receive hstep
  | close =>
    obtain ⟨u, hu, rfl⟩ := Option.map_eq_some_iff.mp hstep
    have hcalled : Tagged u := h.call .idle trivial hu
    exact ⟨hcalled.word, hcalled.queue, hcalled.senders, hcalled.receiver, hcalled.returned⟩

/-- In every run a packet that is returned was loaded in the epoch of its return, unless
`2 ^ 63` resumes have begun in between. -/
theorem returned_in_epoch (capacity : ℕ) (active : Bool) {es : List (Event ι α)}
    (h : Transition.run step (start ι capacity active) es = some s) {r : Returned α}
    (hr : r ∈ s.returned) (hfew : r.resumes < r.entry.born + 2 ^ 63) :
    r.entry.born = r.resumes := by
  have htagged : Tagged s := Transition.run_of_step (P := Tagged)
    (fun _ _ _ hs hstep => hs.step hstep) (tagged_start capacity active) h
  have hepoch := htagged.returned r hr
  omega

end Senders

/-! ### Calls that do not overlap -/

/-- What the queue is for: packets in the order of their sends, as many as fit. -/
structure Fifo (α : Type*) where
  capacity : ℕ
  items : List α
  active : Bool

inductive Call (ι α : Type*) where
  | send (i : ι) (force : Bool) (packet : α)
  | tryRecv
  | suspend
  | resume
  | purge

namespace Fifo

def start (capacity : ℕ) (active : Bool) : Fifo α :=
  { capacity := max capacity 1, items := [], active }

def apply (f : Fifo α) : Call ι α → Outcome α × Fifo α
  | .send _ force packet =>
    if !f.active then (.sent false, f)
    else if f.items.length < f.capacity then
      (.sent true, { f with items := f.items ++ [packet] })
    else if force then (.sent true, { f with items := f.items.tail ++ [packet] })
    else (.sent false, f)
  | .tryRecv =>
    match f.items with
    | [] => (.received none, f)
    | packet :: items => (.received (some packet), { f with items })
  | .suspend => (.done, { f with items := [], active := false })
  | .resume => (.done, { f with items := [], active := true })
  | .purge => (.done, { f with items := [] })

/-- The outcomes of the calls, put before those there are. -/
def run (f : Fifo α) (outcomes : List (Outcome α)) : List (Call ι α) → List (Outcome α) × Fifo α
  | [] => (outcomes, f)
  | call :: calls => (f.apply call).2.run ((f.apply call).1 :: outcomes) calls

end Fifo

namespace Call

def begin : Call ι α → Event ι α
  | .send i force packet => .send i force packet
  | .tryRecv => .tryRecv
  | .suspend => .suspend
  | .resume => .resume
  | .purge => .purge

def next : Call ι α → Event ι α
  | .send i _ _ => .sender i
  | .tryRecv | .suspend | .resume | .purge => .receiver

end Call

/-- Nobody is in a call. -/
def Quiet (s : State ι α) : Prop := s.receiver = .idle ∧ ∀ i, s.senders i = .idle

/-- The packets in the queue are those of the current epoch. -/
structure Refines (s : State ι α) (f : Fifo α) : Prop where
  quiet : Quiet s
  receiverOpen : s.receiverOpen = true
  capacity_eq : f.capacity = s.capacity
  items_eq : f.items = s.queue.map (·.packet)
  active_eq : f.active = isActive s.state
  epoch_eq : ∀ entry ∈ s.queue, entry.epoch = epochOf s.state
  empty : isActive s.state = false → s.queue = []

variable {call : Call ι α} {f : Fifo α}

theorem refines_start (capacity : ℕ) (active : Bool) :
    Refines (State.start ι capacity active : State ι α) (Fifo.start capacity active) := by
  refine ⟨⟨rfl, fun _ => rfl⟩, rfl, rfl, rfl, ?_, ?_, fun _ => rfl⟩
  · cases active
    · rfl
    · rfl
  · intro entry hentry
    exact absurd hentry List.not_mem_nil

theorem full_iff (h : Refines s f) : s.full = true ↔ ¬ f.items.length < f.capacity := by
  rw [State.full, decide_eq_true_eq, h.items_eq, h.capacity_eq, List.length_map, Nat.not_lt]

theorem isActive_of_mem (h : Refines s f) (hentry : entry ∈ s.queue) :
    isActive s.state = true := by
  by_contra hactive
  rw [h.empty (Bool.eq_false_iff.mpr hactive)] at hentry
  exact absurd hentry List.not_mem_nil

theorem isActive_activeWord (epoch : ℕ) : isActive (activeWord epoch) = true := by
  rw [isActive, activeWord, inactiveWord, decide_eq_true_eq]
  omega

theorem isActive_suspendedWord (state : ℕ) : isActive (suspendedWord state) = false := by
  rw [isActive, suspendedWord, decide_eq_false_iff_not]
  omega

/-- A packet of the current epoch at the end of the queue, from which some are gone. -/
theorem Refines.pushed (h : Refines s f) (hactive : isActive s.state = true)
    (hquiet : Quiet t) {packet : α} {kept : List (Entry α)} (hkept : ∀ e ∈ kept, e ∈ s.queue)
    (hqueue : t.queue = kept ++ [{ packet, epoch := epochOf s.state, born := s.resumes }])
    (hopen : t.receiverOpen = s.receiverOpen) (hcapacity : t.capacity = s.capacity)
    (hstate : t.state = s.state) :
    Refines t { f with items := kept.map (·.packet) ++ [packet] } := by
  refine ⟨hquiet, hopen.trans h.receiverOpen, h.capacity_eq.trans hcapacity.symm, ?_, ?_, ?_, ?_⟩
  · rw [hqueue, List.map_append, List.map_singleton]
  · rw [hstate]
    exact h.active_eq
  · rw [hqueue, hstate]
    intro e he
    rcases List.mem_append.mp he with he | he
    · exact h.epoch_eq e (hkept e he)
    · rw [List.mem_singleton.mp he]
  · rw [hstate]
    intro hinactive
    rw [hactive] at hinactive
    exact absurd hinactive (by simp)

theorem call_of_quiet (h : Quiet s) (receiver : Receiver α) :
    s.call receiver = some { s with receiver } := by
  rw [State.call, h.1]

theorem Refines.emptied (h : Refines s f) (hquiet : Quiet t) (hqueue : t.queue = [])
    (hopen : t.receiverOpen = s.receiverOpen) (hcapacity : t.capacity = s.capacity)
    {active : Bool} (hactive : isActive t.state = active) :
    Refines t { f with items := [], active } := by
  refine ⟨hquiet, hopen.trans h.receiverOpen, h.capacity_eq.trans hcapacity.symm, ?_,
    hactive.symm, ?_, fun _ => hqueue⟩
  · rw [hqueue]
    rfl
  · rw [hqueue]
    intro e he
    exact absurd he List.not_mem_nil

section Calls

variable [DecidableEq ι]

/-- The call is made and runs to its end while nobody else takes a step. -/
def Alone (s : State ι α) (call : Call ι α) (t : State ι α) : Prop :=
  ∃ count, Transition.run step s (call.begin :: List.replicate count call.next) = some t ∧ Quiet t

/-- The calls one after another. -/
def Calls : State ι α → List (Call ι α) → State ι α → Prop
  | s, [], t => t = s
  | s, call :: calls, t => ∃ u, Alone s call u ∧ Calls u calls t

/-- A call that is over takes no more steps. -/
theorem step_next_of_quiet (h : Quiet s) : s.step call.next = none := by
  have hreceive : s.receive = none := by
    rw [State.receive, h.1]
  have hsender : ∀ i, s.senderStep i = none := by
    intro i
    rw [State.senderStep, h.2 i]
  cases call with
  | send i force packet => exact hsender i
  | tryRecv => exact hreceive
  | suspend => exact hreceive
  | resume => exact hreceive
  | purge => exact hreceive

/-- So a call has one end. -/
theorem quiet_unique {count : ℕ} :
    ∀ {count' : ℕ} {s t t' : State ι α},
      Transition.run step s (List.replicate count call.next) = some t → Quiet t →
      Transition.run step s (List.replicate count' call.next) = some t' → Quiet t' → t = t' := by
  induction count with
  | zero =>
    intro count' s t t' ht hquiet ht' _
    obtain rfl := Option.some.inj ht
    cases count' with
    | zero => exact Option.some.inj ht'
    | succ count' =>
      rw [List.replicate_succ, Transition.run_cons, step_next_of_quiet hquiet] at ht'
      exact absurd ht' (by simp)
  | succ count ih =>
    intro count' s t t' ht hquiet ht' hquiet'
    cases count' with
    | zero =>
      obtain rfl := Option.some.inj ht'
      rw [List.replicate_succ, Transition.run_cons, step_next_of_quiet hquiet'] at ht
      exact absurd ht (by simp)
    | succ count' =>
      rw [List.replicate_succ, Transition.run_cons] at ht ht'
      obtain ⟨u, hu, ht⟩ := Option.bind_eq_some_iff.mp ht
      rw [hu, Option.bind_some] at ht'
      exact ih ht hquiet ht' hquiet'

theorem Alone.unique (h : Alone s call t) {t' : State ι α} (h' : Alone s call t') : t = t' := by
  obtain ⟨count, ht, hquiet⟩ := h
  obtain ⟨count', ht', hquiet'⟩ := h'
  rw [Transition.run_cons] at ht ht'
  obtain ⟨u, hu, ht⟩ := Option.bind_eq_some_iff.mp ht
  rw [hu, Option.bind_some] at ht'
  exact quiet_unique ht hquiet ht' hquiet'

/-- The call comes to its end, with the outcome and the packets of the queue of packets. -/
def Served (s : State ι α) (f : Fifo α) (call : Call ι α) : Prop :=
  ∃ t, Alone s call t ∧ t.outcomes = (f.apply call).1 :: s.outcomes ∧ Refines t (f.apply call).2

theorem quiet_reply (hreceiver : s.receiver = .idle) (hothers : ∀ j, j ≠ i → s.senders j = .idle)
    (accepted : Bool) : Quiet (s.reply i accepted) := by
  refine ⟨hreceiver, ?_⟩
  exact (Function.forall_update_iff s.senders fun _ sender => sender = .idle).mpr ⟨rfl, hothers⟩

theorem alone_of_steps {u : State ι α} (count : ℕ) (hbegin : s.step call.begin = some u)
    (hrun : Transition.run step u (List.replicate count call.next) = some t) (hquiet : Quiet t) :
    Alone s call t := by
  refine ⟨count, ?_, hquiet⟩
  rw [Transition.run_cons, hbegin]
  exact hrun

/-- The sender when it has looked at `receiver_open`. -/
def opened (s : State ι α) (i : ι) (force : Bool) (packet : α) : State ι α :=
  s.setSender i (.opened force packet)

/-- And when it has loaded the state. -/
def loaded (s : State ι α) (i : ι) (force : Bool) (packet : α) : State ι α :=
  (opened s i force packet).setSender i
    (.loaded force { packet, epoch := epochOf s.state, born := s.resumes })

theorem step_send (h : Refines s f) (i : ι) (force : Bool) (packet : α) :
    s.step (Call.send i force packet).begin = some (opened s i force packet) := by
  simp only [Call.begin, State.step, h.quiet.2 i, h.receiverOpen, if_true]
  rfl

theorem senderStep_opened (s : State ι α) (i : ι) (force : Bool) (packet : α) :
    (opened s i force packet).senderStep i =
      if isActive s.state then some (loaded s i force packet)
      else some ((opened s i force packet).reply i false) := by
  have hsender : (opened s i force packet).senders i = .opened force packet :=
    Function.update_self i _ _
  rw [State.senderStep]
  simp only [hsender]
  rfl

theorem senderStep_loaded {force : Bool} (h : s.senders i = .loaded force entry) :
    s.senderStep i = if !force && s.full then some (s.reply i false)
      else some ((s.push entry).reply i true) := by
  rw [State.senderStep]
  simp only [h]

theorem opened_others (h : Quiet s) (force : Bool) (packet : α) :
    ∀ j, j ≠ i → (opened s i force packet).senders j = .idle := by
  intro j hj
  rw [opened, senders_setSender, Function.update_of_ne hj]
  exact h.2 j

theorem loaded_others (h : Quiet s) (force : Bool) (packet : α) :
    ∀ j, j ≠ i → (loaded s i force packet).senders j = .idle := by
  intro j hj
  rw [loaded, senders_setSender, Function.update_of_ne hj]
  exact opened_others h force packet j hj

theorem served_send (h : Refines s f) (i : ι) (force : Bool) (packet : α) :
    Served s f (.send i force packet) := by
  have hbegin := step_send h i force packet
  have hreceiver : s.receiver = .idle := h.quiet.1
  have hload := senderStep_opened s i force packet
  cases hactive : isActive s.state with
  | false =>
    -- the packet is given back after the load
    have hquiet : Quiet ((opened s i force packet).reply i false) :=
      quiet_reply (s := opened s i force packet) hreceiver (opened_others h.quiet force packet) _
    have happly : f.apply (Call.send i force packet) = (.sent false, f) := by
      simp [Fifo.apply, h.active_eq, hactive]
    rw [hactive, if_neg Bool.false_ne_true] at hload
    refine ⟨_, alone_of_steps 1 hbegin ?_ hquiet, ?_, ?_⟩
    · exact Option.bind_eq_some_iff.mpr ⟨_, hload, rfl⟩
    · rw [happly]
      rfl
    · rw [happly]
      exact ⟨hquiet, h.receiverOpen, h.capacity_eq, h.items_eq, h.active_eq, h.epoch_eq, h.empty⟩
  | true =>
    -- the packet is tagged, and the next step pushes it
    rw [hactive, if_pos rfl] at hload
    have hend := senderStep_loaded (s := loaded s i force packet) (Function.update_self i _ _)
    have hrun : ∀ {t}, (loaded s i force packet).senderStep i = some t →
        Transition.run step (opened s i force packet)
          (List.replicate 2 (Call.send i force packet).next) = some t := by
      intro t ht
      refine Option.bind_eq_some_iff.mpr ⟨_, hload, ?_⟩
      exact Option.bind_eq_some_iff.mpr ⟨_, ht, rfl⟩
    rw [show (loaded s i force packet).full = s.full from rfl] at hend
    have hactive' : f.active = true := h.active_eq.trans hactive
    have hquiet : ∀ queue accepted,
        Quiet (({ loaded s i force packet with queue }).reply i accepted) := by
      intro queue accepted
      exact quiet_reply (s := { loaded s i force packet with queue }) hreceiver
        (loaded_others h.quiet force packet) accepted
    by_cases hfull : s.full = true
    · have hlength : ¬ f.items.length < f.capacity := (full_iff h).mp hfull
      cases force with
      | false =>
        -- `push` gives the packet back
        have happly : f.apply (Call.send i false packet) = (.sent false, f) := by
          simp [Fifo.apply, hactive', hlength]
        rw [hfull, Bool.not_false, Bool.true_and, if_pos rfl] at hend
        refine ⟨_, alone_of_steps 2 hbegin (hrun hend) (hquiet _ false), ?_, ?_⟩
        · rw [happly]
          rfl
        · rw [happly]
          exact ⟨hquiet _ false, h.receiverOpen, h.capacity_eq, h.items_eq, h.active_eq,
            h.epoch_eq, h.empty⟩
      | true =>
        -- `force_push` drops the oldest one
        have happly : f.apply (Call.send i true packet)
            = (.sent true, { f with items := f.items.tail ++ [packet] }) := by
          simp [Fifo.apply, hactive', hlength]
        rw [Bool.not_true, Bool.false_and, if_neg Bool.false_ne_true] at hend
        refine ⟨_, alone_of_steps 2 hbegin (hrun hend) (hquiet _ true), ?_, ?_⟩
        · rw [happly]
          rfl
        · rw [happly, h.items_eq, ← List.map_tail]
          have htail : ∀ e ∈ s.queue.tail, e ∈ s.queue := fun e he => List.mem_of_mem_tail he
          refine h.pushed hactive (hquiet _ true) htail ?_ rfl rfl rfl
          exact congrArg (· ++ _) (if_pos hfull)
    · have hlength : f.items.length < f.capacity := by
        by_contra hlength
        exact hfull ((full_iff h).mpr hlength)
      have happly : f.apply (Call.send i force packet)
          = (.sent true, { f with items := f.items ++ [packet] }) := by
        simp [Fifo.apply, hactive', hlength]
      rw [Bool.eq_false_iff.mpr hfull, Bool.and_false, if_neg Bool.false_ne_true] at hend
      refine ⟨_, alone_of_steps 2 hbegin (hrun hend) (hquiet _ true), ?_, ?_⟩
      · rw [happly]
        rfl
      · rw [happly, h.items_eq]
        refine h.pushed hactive (hquiet _ true) (fun e he => he) ?_ rfl rfl rfl
        exact congrArg (· ++ _) (if_neg hfull)

omit [DecidableEq ι] in
theorem receive_checking (h : s.receiver = .checking entry) (hactive : isActive s.state = true)
    (hepoch : entry.epoch = epochOf s.state) :
    s.receive = some { s.finish (.received (some entry.packet)) with
      returned := { entry, resumes := s.resumes } :: s.returned } := by
  rw [State.receive, h]
  simp only [hactive, hepoch, decide_true, Bool.and_self, if_true]

/-- Each step of `purge` takes one packet away. -/
theorem run_purging {resumed : Option ℕ} :
    ∀ {queue : List (Entry α)} {s : State ι α}, s.queue = queue → s.receiver = .purging resumed →
      Transition.run step s (List.replicate queue.length .receiver)
        = some { s with queue := [] } := by
  intro queue
  induction queue with
  | nil =>
    intro s hqueue _
    rw [List.length_nil, List.replicate_zero, Transition.run_nil, ← hqueue]
  | cons entry queue ih =>
    intro s hqueue hpurging
    have hstep : s.step .receiver = some { s with queue } := by
      rw [State.step, State.receive, hpurging, hqueue]
    rw [List.length_cons, List.replicate_succ, Transition.run_cons, hstep, Option.bind_some]
    exact ih rfl hpurging

theorem run_purge (h : s.receiver = .purging none) :
    Transition.run step s (List.replicate (s.queue.length + 1) .receiver)
      = some ({ s with queue := [] }.finish .done) := by
  rw [← List.replicate_append_replicate, Transition.run_append, run_purging rfl h, Option.bind_some]
  refine Option.bind_eq_some_iff.mpr ⟨_, ?_, rfl⟩
  rw [State.step, State.receive, h]

theorem run_activate {epoch : ℕ} (h : s.receiver = .purging (some epoch)) :
    Transition.run step s (List.replicate (s.queue.length + 2) .receiver)
      = some ({ s with queue := [], state := activeWord epoch }.finish .done) := by
  rw [← List.replicate_append_replicate, Transition.run_append, run_purging rfl h, Option.bind_some]
  refine Option.bind_eq_some_iff.mpr ⟨{ s with queue := [], receiver := .activating epoch }, ?_, ?_⟩
  · rw [State.step, State.receive, h]
  · exact Option.bind_eq_some_iff.mpr ⟨_, rfl, rfl⟩

theorem served_tryRecv (h : Refines s f) : Served s f .tryRecv := by
  have hbegin : s.step (Call.tryRecv : Call ι α).begin = some { s with receiver := .trying } :=
    call_of_quiet h.quiet _
  cases hqueue : s.queue with
  | nil =>
    have happly : f.apply (Call.tryRecv : Call ι α) = (.received none, f) := by
      rw [Fifo.apply, h.items_eq, hqueue]
      rfl
    have hpop : ({ s with receiver := .trying } : State ι α).step .receiver
        = some (s.finish (.received none)) := by
      simp only [State.step, State.receive, State.finish, hqueue]
    refine ⟨s.finish (.received none), alone_of_steps 1 hbegin ?_ ⟨rfl, h.quiet.2⟩, ?_, ?_⟩
    · exact Option.bind_eq_some_iff.mpr ⟨_, hpop, rfl⟩
    · rw [happly]
      rfl
    · rw [happly]
      exact ⟨⟨rfl, h.quiet.2⟩, h.receiverOpen, h.capacity_eq, h.items_eq, h.active_eq, h.epoch_eq,
        h.empty⟩
  | cons entry queue =>
    have hmem : entry ∈ s.queue := by
      rw [hqueue]
      exact List.mem_cons_self
    have happly : f.apply (Call.tryRecv : Call ι α)
        = (.received (some entry.packet), { f with items := queue.map (·.packet) }) := by
      rw [Fifo.apply, h.items_eq, hqueue]
      rfl
    have hpop : ({ s with receiver := .trying } : State ι α).step .receiver
        = some { s with queue, receiver := .checking entry } := by
      simp only [State.step, State.receive, hqueue]
    -- the tag is that of the word, so the first packet is not thrown away
    have hcheck : ({ s with queue, receiver := .checking entry } : State ι α).step .receiver
        = some { s.finish (.received (some entry.packet)) with
            queue, returned := { entry, resumes := s.resumes } :: s.returned } := by
      have hactive := isActive_of_mem h hmem
      have hepoch := h.epoch_eq entry hmem
      exact receive_checking (s := { s with queue, receiver := .checking entry }) rfl hactive hepoch
    refine ⟨{ s.finish (.received (some entry.packet)) with
      queue, returned := { entry, resumes := s.resumes } :: s.returned },
      alone_of_steps 2 hbegin ?_ ⟨rfl, h.quiet.2⟩, ?_, ?_⟩
    · refine Option.bind_eq_some_iff.mpr ⟨_, hpop, ?_⟩
      exact Option.bind_eq_some_iff.mpr ⟨_, hcheck, rfl⟩
    · rw [happly]
      rfl
    · rw [happly]
      refine ⟨⟨rfl, h.quiet.2⟩, h.receiverOpen, h.capacity_eq, rfl, h.active_eq, ?_, ?_⟩
      · intro e he
        refine h.epoch_eq e ?_
        rw [hqueue]
        exact List.mem_cons_of_mem _ he
      · intro hinactive
        rw [h.empty hinactive] at hqueue
        exact absurd hqueue (by simp)

theorem served_suspend (h : Refines s f) : Served s f .suspend := by
  have hbegin : s.step (Call.suspend : Call ι α).begin
      = some { s with receiver := .suspending s.state } := call_of_quiet h.quiet _
  have hstore : ({ s with receiver := .suspending s.state } : State ι α).step .receiver
      = some { s with state := suspendedWord s.state, receiver := .purging none } := rfl
  let t : State ι α := { s with queue := [], state := suspendedWord s.state }.finish .done
  have hquiet : Quiet t := ⟨rfl, h.quiet.2⟩
  refine ⟨t, alone_of_steps (s.queue.length + 2) hbegin ?_ hquiet, rfl, ?_⟩
  · exact Option.bind_eq_some_iff.mpr ⟨_, hstore, run_purge rfl⟩
  · exact h.emptied hquiet rfl rfl rfl (isActive_suspendedWord s.state)

theorem served_purge (h : Refines s f) : Served s f .purge := by
  have hbegin : s.step (Call.purge : Call ι α).begin
      = some { s with receiver := .purging none } := call_of_quiet h.quiet _
  let t : State ι α := { s with queue := [] }.finish .done
  have hquiet : Quiet t := ⟨rfl, h.quiet.2⟩
  refine ⟨t, alone_of_steps (s.queue.length + 1) hbegin ?_ hquiet, rfl, ?_⟩
  · exact run_purge rfl
  · exact h.emptied hquiet rfl rfl rfl h.active_eq.symm

theorem served_resume (h : Refines s f) : Served s f .resume := by
  let epoch := nextEpoch (epochOf s.state)
  have hbegin : s.step (Call.resume : Call ι α).begin
      = some { s with receiver := .resuming epoch } := call_of_quiet h.quiet _
  have hstore : ({ s with receiver := .resuming epoch } : State ι α).step .receiver
      = some { s with
          state := inactiveWord epoch
          resumes := s.resumes + 1
          receiver := .purging (some epoch) } := rfl
  -- the first store, the packets that are purged, the look at the empty queue, the last store
  let t : State ι α :=
    { s with queue := [], state := activeWord epoch, resumes := s.resumes + 1 }.finish .done
  have hquiet : Quiet t := ⟨rfl, h.quiet.2⟩
  refine ⟨t, alone_of_steps (s.queue.length + 3) hbegin ?_ hquiet, rfl, ?_⟩
  · exact Option.bind_eq_some_iff.mpr ⟨_, hstore, run_activate rfl⟩
  · exact h.emptied hquiet rfl rfl rfl (isActive_activeWord epoch)

theorem served (h : Refines s f) (call : Call ι α) : Served s f call := by
  cases call with
  | send i force packet => exact served_send h i force packet
  | tryRecv => exact served_tryRecv h
  | suspend => exact served_suspend h
  | resume => exact served_resume h
  | purge => exact served_purge h

/-- The calls come to an end, and with the outcomes of the queue of packets. -/
theorem calls_refine_fifo {calls : List (Call ι α)} :
    ∀ {s : State ι α} {f : Fifo α}, Refines s f →
      ∃ t, Calls s calls t ∧ (∀ t', Calls s calls t' → t' = t) ∧
        t.outcomes = (f.run s.outcomes calls).1 ∧ Refines t (f.run s.outcomes calls).2 := by
  induction calls with
  | nil =>
    intro s f h
    exact ⟨s, rfl, fun t' ht' => ht', rfl, h⟩
  | cons call calls ih =>
    intro s f h
    obtain ⟨u, halone, houtcomes, hu⟩ := served h call
    obtain ⟨t, hcalls, hunique, ht, hrefines⟩ := ih hu
    rw [houtcomes] at ht hrefines
    refine ⟨t, ⟨u, halone, hcalls⟩, ?_, ht, hrefines⟩
    rintro t' ⟨u', halone', hcalls'⟩
    rw [← halone.unique halone'] at hcalls'
    exact hunique t' hcalls'

/-- In every interleaving a packet that is returned was loaded in the epoch of its return,
unless `2 ^ 63` resumes began in between; and calls that do not overlap come to an end with
what a bounded queue of packets gives. -/
theorem isolated_and_fifo (capacity : ℕ) (active : Bool) :
    (∀ (es : List (Event ι α)) (s : State ι α),
      Transition.run step (State.start ι capacity active) es = some s → ∀ r ∈ s.returned,
        r.resumes < r.entry.born + 2 ^ 63 → r.entry.born = r.resumes) ∧
    ∀ calls : List (Call ι α), ∃ t, Calls (State.start ι capacity active) calls t ∧
      (∀ t', Calls (State.start ι capacity active) calls t' → t' = t) ∧
      t.outcomes = ((Fifo.start capacity active).run [] calls).1 ∧
      Refines t ((Fifo.start capacity active).run [] calls).2 := by
  constructor
  · intro es s h r hr hfew
    exact returned_in_epoch capacity active h hr hfew
  · intro calls
    exact calls_refine_fifo (refines_start capacity active)

/-! ### A sender that sleeps too long -/

/-- The receiver resumes an empty queue again and again. -/
def resumeTimes : ℕ → List (Event ι α)
  | 0 => []
  | count + 1 => [.resume, .receiver, .receiver, .receiver] ++ resumeTimes count

theorem run_resumeTimes (count : ℕ) :
    ∀ {s : State ι α}, s.receiver = .idle → s.queue = [] → s.state = 2 * s.resumes % 2 ^ 64 + 1 →
      ∃ outcomes, Transition.run step s (resumeTimes count) = some { s with
        state := 2 * (s.resumes + count) % 2 ^ 64 + 1
        resumes := s.resumes + count
        outcomes } := by
  induction count with
  | zero =>
    intro s _ _ hstate
    refine ⟨s.outcomes, ?_⟩
    rw [show 2 * (s.resumes + 0) % 2 ^ 64 + 1 = s.state from hstate.symm]
    rfl
  | succ count ih =>
    intro s hreceiver hqueue hstate
    have hword : activeWord (nextEpoch (epochOf s.state)) = 2 * (s.resumes + 1) % 2 ^ 64 + 1 := by
      rw [activeWord, inactiveWord_next (Or.inr hstate), inactiveWord_resumed]
    have hresume : Transition.run step s [.resume, .receiver, .receiver, .receiver]
        = some { s with
            state := 2 * (s.resumes + 1) % 2 ^ 64 + 1
            resumes := s.resumes + 1
            outcomes := .done :: s.outcomes } := by
      rw [← hword]
      simp [State.step, State.call, State.receive, State.finish, hreceiver, hqueue]
    obtain ⟨outcomes, hrun⟩ := ih (s := { s with
      state := 2 * (s.resumes + 1) % 2 ^ 64 + 1
      resumes := s.resumes + 1
      outcomes := .done :: s.outcomes }) hreceiver hqueue rfl
    refine ⟨outcomes, ?_⟩
    rw [resumeTimes, Transition.run_append, hresume, Option.bind_some, hrun,
      Nat.add_right_comm s.resumes 1 count]
    rfl

end Calls

/-- The sender loads the state of a new queue and pushes after `2 ^ 63` resumes. -/
theorem old_epoch_returned : ∃ (es : List (Event Unit ℕ)) (s : State Unit ℕ), ∃ r ∈ s.returned,
    Transition.run step (State.start Unit 1 true) es = some s ∧
      r.entry.born = 0 ∧ r.resumes = 2 ^ 63 := by
  let u : State Unit ℕ := loaded (State.start Unit 1 true) () false 7
  have hloaded : Transition.run step (State.start Unit 1 true) [.send () false 7, .sender ()]
      = some u := rfl
  obtain ⟨outcomes, hresumes⟩ := run_resumeTimes (2 ^ 63) (s := u) rfl rfl rfl
  -- the word is that of the first epoch again
  let woken : State Unit ℕ := { u with state := 1, resumes := 2 ^ 63, outcomes }
  have hcount : u.resumes + 2 ^ 63 = 2 ^ 63 := Nat.zero_add _
  have hwoken : Transition.run step u (resumeTimes (2 ^ 63)) = some woken := by
    rw [hresumes, hcount, show 2 * 2 ^ 63 % 2 ^ 64 + 1 = 1 by decide]
  let checking : State Unit ℕ := { woken.reply () true with receiver := .checking ⟨7, 0, 0⟩ }
  have hpopped : Transition.run step woken [.sender (), .tryRecv, .receiver]
      = some checking := rfl
  have hepoch : 0 = epochOf 1 := by decide
  have hchecked := receive_checking (s := checking) rfl rfl hepoch
  refine ⟨[Event.send () false 7, .sender ()] ++ (resumeTimes (2 ^ 63) ++
    ([Event.sender (), .tryRecv, .receiver] ++ [Event.receiver])),
    { checking.finish (.received (some 7)) with returned := [⟨⟨7, 0, 0⟩, 2 ^ 63⟩] },
    ⟨⟨7, 0, 0⟩, 2 ^ 63⟩, ?_, ?_, rfl, rfl⟩
  · exact List.mem_cons_self
  · rw [Transition.run_append, hloaded, Option.bind_some, Transition.run_append, hwoken,
      Option.bind_some, Transition.run_append, hpopped, Option.bind_some]
    exact Option.bind_eq_some_iff.mpr ⟨_, hchecked, rfl⟩

end Csqtt.QueueEpoch
