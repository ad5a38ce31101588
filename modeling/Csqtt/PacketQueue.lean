/-
The packet queue between the dispatcher and a session.

Any number of senders push and one receiver pops; a `Notify` with a single permit
wakes the receiver.  The steps of `send_inner` and of `recv` interleave freely.
The queue stays active, so `state` keeps its epoch, and `recv` is not cancelled.

`try_send` notifies only if it reads the length 1 after its push.  A push that
comes between another sender's push and that sender's reading makes both read 2,
and the receiver is not told (`two_sends_lost`).

* `no_lost_wakeup` — the receiver is never left parked in front of a packet while
  every `try_send` that pushes behind an unannounced one is `Covered`;
* `uncovered_push_loses` — a push that is not can be followed by the rest of the sends
  alone to a lost wake-up.
-/
import Csqtt.TransitionRun
import Mathlib.Data.Fintype.Basic
import Mathlib.Logic.Function.Basic

open Transition

namespace Csqtt.PacketQueue

variable {ι α : Type*}

structure QueuedPacket (α : Type*) where
  packet : α
  epoch : ℕ
  deriving DecidableEq

/-- What a sender does next. -/
inductive Sender (α : Type*) where
  | idle
  /-- The state is loaded; to push, by force or not. -/
  | loaded (force : Bool) (queued : QueuedPacket α)
  /-- To read the length after a `push`. -/
  | pushed
  | notifying
  deriving DecidableEq

/-- What the receiver does next. -/
inductive Receiver where
  /-- Not in `recv`. -/
  | outside
  /-- The first `try_recv` of a turn. -/
  | receiving
  /-- To create `notified`. -/
  | listening
  /-- The second `try_recv`. -/
  | checking
  /-- To poll `notified`. -/
  | waiting
  | parked
  deriving DecidableEq

structure Shared (ι α : Type*) where
  capacity : ℕ
  /-- `state >> 1`. -/
  epoch : ℕ
  queue : List (QueuedPacket α)
  /-- The permit of the `Notify`. -/
  permit : Bool
  receiver : Receiver
  senders : ι → Sender α

inductive Event (ι α : Type*) where
  /-- A sender is given a packet and loads the state. -/
  | load (i : ι) (packet : α) (force : Bool)
  | push (i : ι)
  | readLen (i : ι)
  | notifyOne (i : ι)
  /-- `recv` is called. -/
  | recv
  /-- The receiver's next step. -/
  | receive

namespace Shared

def start (ι α : Type*) (capacity epoch : ℕ) : Shared ι α :=
  { capacity, epoch, queue := [], permit := false, receiver := .outside, senders := fun _ => .idle }

/-- `force_push`: a full queue drops its oldest packet. -/
def forcePush (s : Shared ι α) (queued : QueuedPacket α) : List (QueuedPacket α) :=
  if s.queue.length < s.capacity then s.queue ++ [queued] else s.queue.tail ++ [queued]

/-- `notify_one`: wake the receiver, or leave the permit. -/
def notify (s : Shared ι α) : Shared ι α :=
  if s.receiver = .parked then { s with receiver := .receiving } else { s with permit := true }

/-- One turn of the loop of `try_recv`, and what the receiver does if the queue is empty. -/
def tryRecv (s : Shared ι α) (onEmpty : Receiver) : Shared ι α :=
  match s.queue with
  | [] => { s with receiver := onEmpty }
  | queued :: queue =>
    { s with queue, receiver := if queued.epoch = s.epoch then .outside else s.receiver }

/-- The receiver's step; a parked receiver has none. -/
def receive (s : Shared ι α) : Option (Shared ι α) :=
  match s.receiver with
  | .outside => none
  | .receiving => some (s.tryRecv .listening)
  | .listening => some { s with receiver := .checking }
  | .checking => some (s.tryRecv .waiting)
  | .waiting =>
    if s.permit then some { s with permit := false, receiver := .receiving }
    else some { s with receiver := .parked }
  | .parked => none

variable [DecidableEq ι]

def setSender (s : Shared ι α) (i : ι) (sender : Sender α) : Shared ι α :=
  { s with senders := Function.update s.senders i sender }

def push (s : Shared ι α) (i : ι) : Option (Shared ι α) :=
  match s.senders i with
  | .loaded true queued => some ({ s with queue := s.forcePush queued }.setSender i .notifying)
  | .loaded false queued =>
    if s.queue.length < s.capacity then
      some ({ s with queue := s.queue ++ [queued] }.setSender i .pushed)
    else some (s.setSender i .idle)
  | _ => none

def step (s : Shared ι α) : Event ι α → Option (Shared ι α)
  | .load i packet force =>
    match s.senders i with
    | .idle => some (s.setSender i (.loaded force ⟨packet, s.epoch⟩))
    | _ => none
  | .push i => s.push i
  | .readLen i =>
    match s.senders i with
    | .pushed => some (s.setSender i (if s.queue.length = 1 then .notifying else .idle))
    | _ => none
  | .notifyOne i =>
    match s.senders i with
    | .notifying => some (s.setSender i .idle).notify
    | _ => none
  | .recv => if s.receiver = .outside then some { s with receiver := .receiving } else none
  | .receive => s.receive

end Shared

open Shared

/-! ### The invariant -/

/-- The sender will notify, whatever length the queue has. -/
def Sender.announces : Sender α → Bool
  | .loaded force _ => force
  | .notifying => true
  | _ => false

def Announces (s : Shared ι α) : Prop := ∃ i, (s.senders i).announces

/-- The receiver has found the queue empty and waits for a notification. -/
def Armed (s : Shared ι α) : Prop :=
  (s.receiver = .waiting ∨ s.receiver = .parked) ∧ s.permit = false

/-- If packets lie before a receiver that waits, a sender is going to tell it: one that
notifies anyway, or the one that reads the length 1. -/
def Owed (s : Shared ι α) : Prop :=
  Armed s → s.queue ≠ [] → Announces s ∨ s.queue.length = 1 ∧ ∃ i, s.senders i = .pushed

/-- A `try_send` does not push behind a packet that a waiting receiver has not been told
of, or another sender is going to notify in any case. -/
def Covered (s : Shared ι α) : Event ι α → Prop
  | .push i => (s.senders i).announces = false → s.queue ≠ [] → s.queue.length < s.capacity →
      Armed s → Announces s
  | _ => True

/-- Nobody is sending, and the receiver sleeps in front of a packet. -/
def Lost (s : Shared ι α) : Prop :=
  (∀ i, s.senders i = .idle) ∧ s.queue ≠ [] ∧ s.receiver = .parked ∧ s.permit = false

theorem Owed.not_lost {s : Shared ι α} (h : Owed s) : ¬ Lost s := by
  rintro ⟨hidle, hqueue, hparked, hpermit⟩
  rcases h ⟨.inr hparked, hpermit⟩ hqueue with ⟨i, hi⟩ | ⟨_, i, hi⟩
  · rw [hidle i] at hi
    exact Bool.false_ne_true hi
  · exact nomatch (hidle i).symm.trans hi

theorem owed_start (capacity epoch : ℕ) : Owed (start ι α capacity epoch) :=
  fun _ hqueue => absurd rfl hqueue

/-- A receiver that is not armed is owed nothing. -/
theorem owed_of_not_armed {s : Shared ι α} (h : ¬ Armed s) : Owed s := fun harmed => absurd harmed h

theorem notify_not_armed (s : Shared ι α) : ¬ Armed s.notify := by
  rintro ⟨hreceiver, hpermit⟩
  rw [notify] at hreceiver hpermit
  split_ifs at hreceiver hpermit with hparked
  rcases hreceiver with h | h
  · exact nomatch h
  · exact nomatch h

/-- A look at the queue finds it empty or leaves `recv` for now. -/
theorem owed_tryRecv {s : Shared ι α} {onEmpty : Receiver} (hwaiting : s.receiver ≠ .waiting)
    (hparked : s.receiver ≠ .parked) : Owed (s.tryRecv onEmpty) := by
  rcases hs : s.queue with _ | ⟨queued, queue⟩
  · intro _ hqueue
    rw [tryRecv, hs] at hqueue
    exact absurd rfl hqueue
  · refine owed_of_not_armed fun ⟨hreceiver, _⟩ => ?_
    rw [tryRecv, hs] at hreceiver
    simp only at hreceiver
    split_ifs at hreceiver with hepoch
    · exact hreceiver.elim (nomatch ·) (nomatch ·)
    · exact hreceiver.elim hwaiting hparked

theorem Owed.receive {s t : Shared ι α} (h : Owed s) (hstep : s.receive = some t) : Owed t := by
  rw [Shared.receive] at hstep
  rcases hreceiver : s.receiver with _ | _ | _ | _ | _ | _
  all_goals rw [hreceiver] at hstep
  · exact nomatch hstep
  · rw [← Option.some.inj hstep]
    exact owed_tryRecv (by rw [hreceiver]; decide) (by rw [hreceiver]; decide)
  · rw [← Option.some.inj hstep]
    exact owed_of_not_armed fun ⟨h, _⟩ => h.elim (nomatch ·) (nomatch ·)
  · rw [← Option.some.inj hstep]
    exact owed_tryRecv (by rw [hreceiver]; decide) (by rw [hreceiver]; decide)
  · simp only at hstep
    split_ifs at hstep with hpermit
    · rw [← Option.some.inj hstep]
      exact owed_of_not_armed fun ⟨h, _⟩ => h.elim (nomatch ·) (nomatch ·)
    · -- it was armed before it parked
      rw [← Option.some.inj hstep]
      exact fun harmed hqueue => h ⟨.inl hreceiver, harmed.2⟩ hqueue
  · exact nomatch hstep

variable [DecidableEq ι]

theorem announces_setSender_iff {s : Shared ι α} {i : ι} {sender : Sender α} :
    Announces (s.setSender i sender) ↔
      sender.announces ∨ ∃ j ≠ i, (s.senders j).announces :=
  Function.exists_update_iff s.senders fun _ x => x.announces

/-- A sender that was not going to notify does not take the notification away. -/
theorem Announces.setSender {s : Shared ι α} (h : Announces s) {i : ι}
    (hi : (s.senders i).announces = false) (sender : Sender α) :
    Announces (s.setSender i sender) := by
  obtain ⟨j, hj⟩ := h
  have hne : j ≠ i := by
    rintro rfl
    exact Bool.false_ne_true (hi.symm.trans hj)
  exact announces_setSender_iff.mpr (.inr ⟨j, hne, hj⟩)

theorem announces_setSender {s : Shared ι α} (i : ι) {sender : Sender α}
    (h : sender.announces) : Announces (s.setSender i sender) :=
  announces_setSender_iff.mpr (.inl h)

/-- A sender that owed nothing can go where it likes. -/
theorem Owed.setSender {s : Shared ι α} (h : Owed s) {i : ι}
    (hi : (s.senders i).announces = false) (hpushed : s.senders i ≠ .pushed) (sender : Sender α) :
    Owed (s.setSender i sender) := by
  intro harmed hqueue
  rcases h harmed hqueue with hann | ⟨hlen, j, hj⟩
  · exact .inl (hann.setSender hi sender)
  · refine .inr ⟨hlen, j, ?_⟩
    have hne : j ≠ i := fun hji => hpushed (hji ▸ hj)
    show Function.update s.senders i sender j = .pushed
    rwa [Function.update_of_ne hne]

theorem Owed.push {s t : Shared ι α} {i : ι} (h : Owed s) (hok : Covered s (.push i))
    (hstep : s.push i = some t) : Owed t := by
  rw [Shared.push] at hstep
  split at hstep
  · -- by force: a notification follows
    rw [← Option.some.inj hstep]
    exact fun _ _ => .inl (announces_setSender i rfl)
  · next queued hi =>
    have hquiet : (s.senders i).announces = false := by
      rw [hi]
      rfl
    split_ifs at hstep with hroom
    · rw [← Option.some.inj hstep]
      intro harmed _
      by_cases hqueue : s.queue = []
      · -- the first packet: its sender reads 1 if nobody comes in between
        right
        refine ⟨?_, i, Function.update_self ..⟩
        show (s.queue ++ [queued]).length = 1
        rw [hqueue]
        rfl
      · exact .inl ((hok hquiet hqueue hroom harmed).setSender hquiet _)
    · rw [← Option.some.inj hstep]
      exact h.setSender hquiet (fun hp => nomatch hi.symm.trans hp) _
  · exact nomatch hstep

theorem Owed.readLen {s : Shared ι α} {i : ι} (h : Owed s) (hi : s.senders i = .pushed) :
    Owed (s.setSender i (if s.queue.length = 1 then .notifying else .idle)) := by
  intro harmed hqueue
  left
  by_cases hlen : s.queue.length = 1
  · rw [if_pos hlen]
    exact announces_setSender i rfl
  · rcases h harmed hqueue with hann | ⟨hone, _⟩
    · exact hann.setSender (by rw [hi]; rfl) _
    · exact absurd hone hlen

theorem Owed.step {s t : Shared ι α} {e : Event ι α} (h : Owed s) (hok : Covered s e)
    (hstep : s.step e = some t) : Owed t := by
  cases e with
  | load i packet force =>
    rw [Shared.step] at hstep
    split at hstep
    · next hi =>
      rw [← Option.some.inj hstep]
      exact h.setSender (by rw [hi]; rfl) (fun hp => nomatch hi.symm.trans hp) _
    · exact nomatch hstep
  | push i => exact h.push hok hstep
  | readLen i =>
    rw [Shared.step] at hstep
    split at hstep
    · next hi =>
      rw [← Option.some.inj hstep]
      exact h.readLen hi
    · exact nomatch hstep
  | notifyOne i =>
    rw [Shared.step] at hstep
    split at hstep
    · rw [← Option.some.inj hstep]
      exact owed_of_not_armed (notify_not_armed _)
    · exact nomatch hstep
  | recv =>
    rw [Shared.step] at hstep
    split_ifs at hstep
    rw [← Option.some.inj hstep]
    exact owed_of_not_armed fun ⟨hreceiver, _⟩ => hreceiver.elim (nomatch ·) (nomatch ·)
  | receive => exact h.receive hstep

/-- **No wake-up is lost** while every push that needs it is covered. -/
theorem no_lost_wakeup (capacity epoch : ℕ) (events : List (Event ι α))
    (hcovered : Admits step Covered (start ι α capacity epoch) events) :
    Always step (fun s => ¬ Lost s) (start ι α capacity epoch) events :=
  (always_of_admits (fun _ _ _ h hok hstep => h.step hok hstep) (owed_start capacity epoch)
    hcovered).mono fun _ h => h.not_lost

/-! ### A push that is not covered -/

/-- The receiver waits before two packets, and nobody is going to notify. -/
structure Doomed (s : Shared ι α) : Prop where
  armed : Armed s
  silent : ∀ i, (s.senders i).announces = false
  crowded : 2 ≤ s.queue.length

/-- Steps with which no send and no `recv` begins. -/
def Event.continues : Event ι α → Bool
  | .push _ | .readLen _ | .notifyOne _ | .receive => true
  | .load .. | .recv => false

theorem Doomed.setSender {s : Shared ι α} (h : Doomed s) (i : ι) {sender : Sender α}
    (hsender : sender.announces = false) : Doomed (s.setSender i sender) where
  armed := h.armed
  silent := (Function.forall_update_iff s.senders fun _ sender => sender.announces = false).mpr
    ⟨hsender, fun j _ => h.silent j⟩
  crowded := h.crowded

/-- A sender can end its send, and the state stays doomed. -/
theorem Doomed.settle {s : Shared ι α} (h : Doomed s) (i : ι) :
    ∃ events t, run step s events = some t ∧ (∀ e ∈ events, Event.continues e) ∧ Doomed t ∧
      t.senders = Function.update s.senders i .idle := by
  have hread : ∀ s : Shared ι α, Doomed s → s.senders i = .pushed →
      step s (.readLen i) = some (s.setSender i .idle) := by
    intro s h hi
    have hlen : ¬ s.queue.length = 1 := fun hone => absurd (hone ▸ h.crowded) (by decide)
    simp only [step, hi, if_neg hlen]
  have hquiet := h.silent i
  rcases hi : s.senders i with _ | ⟨force, queued⟩ | _ | _
  · exact ⟨[], s, rfl, fun _ he => absurd he List.not_mem_nil, h, by
      rw [← hi, Function.update_eq_self]⟩
  · rw [hi] at hquiet
    obtain rfl : force = false := hquiet
    by_cases hroom : s.queue.length < s.capacity
    · -- it pushes, reads a length above 1 and leaves
      set s' := ({ s with queue := s.queue ++ [queued] } : Shared ι α).setSender i .pushed
      have hpush : step s (.push i) = some s' := by
        simp only [step, Shared.push, hi, if_pos hroom]
        rfl
      have hcrowded : 2 ≤ (s.queue ++ [queued]).length :=
        h.crowded.trans (List.prefix_append _ _).length_le
      have hdoomed : Doomed { s with queue := s.queue ++ [queued] } :=
        ⟨h.armed, h.silent, hcrowded⟩
      have hread' := hread s' (hdoomed.setSender i rfl) (Function.update_self ..)
      refine ⟨[.push i, .readLen i], s'.setSender i .idle, ?_, by simp [Event.continues],
        (hdoomed.setSender i rfl).setSender i rfl, Function.update_idem ..⟩
      rw [run_cons, hpush, Option.bind_some, run_cons, hread']
      rfl
    · refine ⟨[.push i], s.setSender i .idle, ?_, by simp [Event.continues], h.setSender i rfl, rfl⟩
      simp only [run_cons, run_nil, step, Shared.push, hi, if_neg hroom, Option.bind_some]
  · refine ⟨[.readLen i], s.setSender i .idle, ?_, by simp [Event.continues], h.setSender i rfl, rfl⟩
    rw [run_cons, hread s h hi]
    rfl
  · rw [hi] at hquiet
    exact nomatch hquiet

theorem Doomed.settle_all {s : Shared ι α} (h : Doomed s) (senders : List ι) :
    ∃ events t, run step s events = some t ∧ (∀ e ∈ events, Event.continues e) ∧ Doomed t ∧
      (∀ i ∈ senders, t.senders i = .idle) ∧ ∀ i, s.senders i = .idle → t.senders i = .idle := by
  induction senders generalizing s with
  | nil => exact ⟨[], s, rfl, fun _ he => absurd he List.not_mem_nil, h,
      fun _ hi => absurd hi List.not_mem_nil, fun _ hi => hi⟩
  | cons i senders ih =>
    obtain ⟨first, u, hfirst, hcont, hu, hsenders⟩ := h.settle i
    obtain ⟨rest, t, hrest, hcont', ht, hidle, hkept⟩ := ih hu
    have hi : u.senders i = .idle := by rw [hsenders, Function.update_self]
    refine ⟨first ++ rest, t, ?_, fun e he => (List.mem_append.mp he).elim (hcont e) (hcont' e), ht,
      fun j hj => ?_, fun j hj => hkept j ?_⟩
    · rw [run_append, hfirst, Option.bind_some, hrest]
    · rcases List.mem_cons.mp hj with rfl | hj
      · exact hkept j hi
      · exact hidle j hj
    · by_cases hji : j = i
      · rw [hji, hi]
      · rw [hsenders, Function.update_of_ne hji, hj]

/-- **A push that is not covered loses a wake-up**, if nothing new is sent. -/
theorem uncovered_push_loses [Fintype ι] {s t : Shared ι α} {i : ι}
    (hstep : step s (.push i) = some t) (huncovered : ¬ Covered s (.push i)) :
    ∃ events u, run step t events = some u ∧ (∀ e ∈ events, Event.continues e) ∧ Lost u := by
  obtain ⟨hquiet, hqueue, hroom, harmed, hsilent⟩ : (s.senders i).announces = false ∧
      s.queue ≠ [] ∧ s.queue.length < s.capacity ∧ Armed s ∧ ¬ Announces s := by
    simpa only [Covered, Classical.not_imp] using huncovered
  have hdoomed : Doomed t := by
    simp only [step, Shared.push] at hstep
    split at hstep
    · next hi =>
      rw [hi] at hquiet
      exact nomatch hquiet
    · next queued hi =>
      rw [if_pos hroom] at hstep
      rw [← Option.some.inj hstep]
      refine ⟨harmed, ?_, ?_⟩
      · refine (Function.forall_update_iff s.senders fun _ sender =>
          sender.announces = false).mpr ⟨rfl, ?_⟩
        intro j _
        exact Bool.eq_false_iff.mpr fun hann => hsilent ⟨j, hann⟩
      · show 2 ≤ (s.queue ++ [queued]).length
        have hpos : 0 < s.queue.length := List.length_pos_iff.mpr hqueue
        rw [List.length_append, List.length_singleton]
        omega
    · exact nomatch hstep
  -- everybody ends the send, and the receiver parks if it has not
  obtain ⟨events, u, hrun, hcont, hu, hidle, _⟩ := hdoomed.settle_all Finset.univ.toList
  have hidle : ∀ i, u.senders i = .idle :=
    fun i => hidle i (Finset.mem_toList.mpr (Finset.mem_univ i))
  have hne : u.queue ≠ [] := List.ne_nil_of_length_pos (Nat.lt_of_lt_of_le Nat.two_pos hu.crowded)
  rcases hu.armed.1 with hwaiting | hparked
  · refine ⟨events ++ [.receive], { u with receiver := .parked }, ?_, fun e he => ?_,
      hidle, hne, rfl, hu.armed.2⟩
    · rw [run_append, hrun]
      simp only [Option.bind_some, run_cons, run_nil, step, Shared.receive, hwaiting, hu.armed.2]
      rfl
    · rcases List.mem_append.mp he with he | he
      · exact hcont e he
      · rw [List.mem_singleton.mp he]
        rfl
  · exact ⟨events, u, hrun, hcont, hidle, hne, hparked, hu.armed.2⟩

/-! ### Two senders -/

section Decidable

variable [Fintype ι] [DecidableEq α]

instance (s : Shared ι α) : Decidable (Announces s) := inferInstanceAs (Decidable (∃ _, _))

instance (s : Shared ι α) : Decidable (Armed s) := inferInstanceAs (Decidable (_ ∧ _))

instance (s : Shared ι α) : DecidablePred (Covered s)
  | .push _ => inferInstanceAs (Decidable (_ → _ → _ → _ → _))
  | .load .. | .readLen _ | .notifyOne _ | .recv | .receive => isTrue trivial

instance (s : Shared ι α) : Decidable (Lost s) := inferInstanceAs (Decidable (_ ∧ _))

end Decidable

/-- The receiver calls `recv` on the empty queue and parks; two senders are given a
packet each. -/
def parkThenLoad : List (Event (Fin 2) ℕ) :=
  [.recv, .receive, .receive, .receive, .receive, .load ⟨0, Nat.two_pos⟩ 7 false,
    .load ⟨1, Nat.one_lt_two⟩ 8 false]

/-- The second packet is pushed when the first sender has read the length. -/
theorem second_push_covered :
    Always step (fun s => ¬ Lost s) (start (Fin 2) ℕ 8 0)
      (parkThenLoad ++ [.push 0, .readLen 0, .push 1, .readLen 1, .notifyOne 0]) :=
  no_lost_wakeup 8 0 _ (by decide)

/-- Both packets are pushed before either length is read. -/
theorem two_sends_lost :
    ¬ ∀ (capacity epoch : ℕ) (events : List (Event (Fin 2) ℕ)), 0 < capacity →
      Always step (fun s => ¬ Lost s) (start (Fin 2) ℕ capacity epoch) events := by
  intro hclaim
  have hrun := hclaim 8 0 (parkThenLoad ++ [Event.push 0, .push 1, .readLen 0, .readLen 1])
    (by decide)
  obtain ⟨t, ht, hlost⟩ : ∃ t, run step (start (Fin 2) ℕ 8 0)
      (parkThenLoad ++ [Event.push 0, .push 1, .readLen 0, .readLen 1]) = some t ∧ Lost t :=
    ⟨_, rfl, by decide⟩
  exact always_iff_prefixes.mp hrun _ List.prefix_rfl t ht hlost

end Csqtt.PacketQueue
