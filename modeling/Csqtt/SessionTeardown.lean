/-
The end of a session while the dispatcher still sends to it.

A session marks its worker unhealthy, waits for its writer, which drops the three
receivers, takes what is left in the queues and dispatches it again; only then is the
worker unregistered.  Dispatchers hold tables of their own, so a send to the worker can
be at any of its four steps meanwhile: the health flag, `receiver_open`, the state and
the push are read and written one after the other.  Here a sender may try any worker at
any time, which covers every table and every order in which a table is walked.

`drain_uplink` looks at a queue until it is empty once.  A send that has found the
receiver open pushes behind its back.

* `teardown_strands_nothing_iff` — an unregistered worker to which nobody is sending has
  nothing left, and every packet its queues accepted is accounted for, exactly when each
  push was in time;
* `late_push_stranded` — a push that was not.
-/
import Csqtt.Dispatch
import Csqtt.TransitionRun

open Transition

namespace Csqtt.Teardown

open Dispatcher PacketQueue StripedScheduler

variable {ω ι π : Type*}

/-! ### Queues with a ledger -/

/-- What became of a packet that a queue has accepted. -/
inductive Fate where
  | read
  /-- Popped by the writer, but queued under another epoch. -/
  | stale
  | evicted
  | stolen
  deriving DecidableEq

/-- A queue, and what it accepted and gave away; the source does not keep the latter. -/
structure Lane (π : Type*) extends Queue π where
  accepted : List π := []
  fates : List (Fate × π) := []

namespace Lane

/-- The queue without its oldest packet. -/
def give (l : Lane π) (fate : Fate) : Lane π :=
  { l with
    queue := l.queue.tail
    fates := l.fates ++ (l.queue.take 1).map fun oldest => (fate, oldest.packet) }

def enqueue (l : Lane π) (queued : QueuedPacket π) : Lane π :=
  { l with queue := l.queue ++ [queued], accepted := l.accepted ++ [queued.packet] }

/-- The push of `send_inner`; a full queue drops its oldest packet. -/
def put (l : Lane π) (queued : QueuedPacket π) : Lane π :=
  (if l.full then l.give .evicted else l).enqueue queued

/-- The receiver is dropped. -/
def close (l : Lane π) : Lane π := { l with receiverOpen := false }

/-- What `try_recv` makes of the packet that it pops. -/
def verdict (l : Lane π) (queued : QueuedPacket π) : Fate :=
  if l.active ∧ queued.epoch = l.epoch then .read else .stale

/-- The packets with this fate, in order. -/
def took (l : Lane π) (fate : Fate) : List π :=
  (l.fates.filter fun f => f.1 = fate).map Prod.snd

end Lane

/-! ### A worker and its session -/

inductive Phase where
  /-- Up to the end of the session's loop. -/
  | running
  /-- Unhealthy; the tasks are being stopped. -/
  | stopping
  /-- `steal` of the queue of this class. -/
  | draining (c : PacketClass)
  | redispatching
  | unregistered
  deriving DecidableEq

/-- The queue of the class has been found empty by `drain_uplink`. -/
def Phase.past : Phase → PacketClass → Bool
  | .running, _ | .stopping, _ | .draining .small, _ => false
  | .draining .medium, c => c = .small
  | .draining .bulk, c => c ≠ .bulk
  | .redispatching, _ | .unregistered, _ => true

/-- The phase after the queue of the class is found empty. -/
def Phase.next : PacketClass → Phase
  | .small => .draining .medium
  | .medium => .draining .bulk
  | .bulk => .redispatching

structure Worker (π : Type*) where
  lanes : PacketClass → Lane π
  healthy : Bool := true
  phase : Phase := .running
  /-- Taken by `drain_uplink` and not yet dispatched again. -/
  drained : List π := []
  /-- Dispatched again; not kept by the source. -/
  redispatched : List π := []

/-- What happens to a worker. -/
inductive Deed (π : Type*) where
  | push (c : PacketClass) (queued : QueuedPacket π) (force : Bool)
  /-- The writer pops the queue of this class. -/
  | recv (c : PacketClass)
  /-- The writer drops the receiver of this class. -/
  | close (c : PacketClass)
  | markUnhealthy
  /-- `stop_session_tasks` returns. -/
  | stop
  /-- One `pop` of `drain_uplink`. -/
  | steal
  | redispatch
  | unregister

namespace Worker

def set (w : Worker π) (c : PacketClass) (l : Lane π) : Worker π :=
  { w with lanes := Function.update w.lanes c l }

def steal (w : Worker π) (c : PacketClass) : Worker π :=
  match (w.lanes c).queue with
  | [] => { w with phase := .next c }
  | queued :: _ =>
    { w.set c ((w.lanes c).give .stolen) with drained := w.drained ++ [queued.packet] }

/-- The worker after a deed; none when it does not take place. -/
def act (w : Worker π) : Deed π → Option (Worker π)
  | .push c queued force =>
    if force ∨ (w.lanes c).full = false then some (w.set c ((w.lanes c).put queued)) else none
  | .recv c =>
    -- one turn of the loop of `try_recv`
    match (w.lanes c).receiverOpen, (w.lanes c).queue with
    | true, queued :: _ => some (w.set c ((w.lanes c).give ((w.lanes c).verdict queued)))
    | _, _ => none
  | .close c => some (w.set c (w.lanes c).close)
  | .markUnhealthy =>
    if w.phase = .running then some { w with healthy := false, phase := .stopping } else none
  | .stop =>
    -- the writer is gone, and with it the receivers
    if w.phase = .stopping ∧ ∀ c ∈ [PacketClass.small, .medium, .bulk],
        (w.lanes c).receiverOpen = false then
      some { w with phase := .draining .small }
    else none
  | .steal =>
    match w.phase with
    | .draining c => some (w.steal c)
    | _ => none
  | .redispatch =>
    match w.phase, w.drained with
    | .redispatching, packet :: drained =>
      some { w with drained, redispatched := w.redispatched ++ [packet] }
    | _, _ => none
  | .unregister =>
    if w.phase = .redispatching ∧ w.drained = [] then some { w with phase := .unregistered }
    else none

end Worker

/-! ### Senders -/

/-- Who sends: a dispatcher, or the session of a worker in `redispatch_all`. -/
inductive Caller (ω ι : Type*) where
  | dispatcher (i : ι)
  | session (w : ω)
  deriving DecidableEq

/-- One send to a queue of a worker. -/
structure Attempt (ω π : Type*) where
  packet : π
  lane : PacketClass
  worker : ω
  force : Bool

/-- What a sender does next. -/
inductive Sender (ω π : Type*) where
  | idle
  /-- Between two attempts with the packet. -/
  | holding (packet : π) (c : PacketClass)
  /-- The worker has been found healthy. -/
  | chosen (attempt : Attempt ω π)
  /-- `receiver_open` has been read. -/
  | opened (attempt : Attempt ω π)
  /-- The state has been read, with this epoch. -/
  | loaded (attempt : Attempt ω π) (epoch : ℕ)

/-- The send that the sender is in the middle of. -/
def Sender.attempt : Sender ω π → Option (Attempt ω π)
  | .chosen attempt | .opened attempt | .loaded attempt _ => some attempt
  | .idle | .holding _ _ => none

structure System (ω ι π : Type*) where
  workers : ω → Worker π
  senders : Caller ω ι → Sender ω π

inductive Event (ω ι π : Type*) where
  /-- A dispatcher is given a packet. -/
  | take (i : ι) (packet : π) (c : PacketClass)
  /-- The health flag of a worker is read. -/
  | choose (k : Caller ω ι) (w : ω) (force : Bool)
  /-- The queue is congested, or is not the shortest. -/
  | skip (k : Caller ω ι)
  | loadOpen (k : Caller ω ι)
  | loadState (k : Caller ω ι)
  | push (k : Caller ω ι)
  /-- No worker is left to be tried. -/
  | drop (k : Caller ω ι)
  /-- A session or its writer goes on. -/
  | recv (w : ω) (c : PacketClass)
  | close (w : ω) (c : PacketClass)
  | markUnhealthy (w : ω)
  | stop (w : ω)
  | steal (w : ω)
  | redispatch (w : ω) (c : PacketClass)
  | unregister (w : ω)

namespace System

/-- The session has just been registered; queues are created active. -/
def start (ω ι π : Type*) (capacity : PacketClass → ℕ) : System ω ι π where
  workers _ := { lanes := fun c => { capacity := capacity c } }
  senders _ := .idle

variable [DecidableEq ω] [DecidableEq ι]

def setWorker (s : System ω ι π) (w : ω) (worker : Worker π) : System ω ι π :=
  { s with workers := Function.update s.workers w worker }

def setSender (s : System ω ι π) (k : Caller ω ι) (sender : Sender ω π) : System ω ι π :=
  { s with senders := Function.update s.senders k sender }

/-- A deed of the session of a worker, or of its writer. -/
def session (s : System ω ι π) (w : ω) (d : Deed π) : Option (System ω ι π) :=
  ((s.workers w).act d).map (s.setWorker w)

/-- The packet is given back after a refusal. -/
def giveBack (s : System ω ι π) (k : Caller ω ι) (a : Attempt ω π) : System ω ι π :=
  s.setSender k (.holding a.packet a.lane)

def step (s : System ω ι π) : Event ω ι π → Option (System ω ι π)
  | .take i packet c =>
    match s.senders (.dispatcher i) with
    | .idle => some (s.setSender (.dispatcher i) (.holding packet c))
    | _ => none
  | .choose k w force =>
    match s.senders k with
    | .holding packet c =>
      if (s.workers w).healthy then some (s.setSender k (.chosen ⟨packet, c, w, force⟩)) else none
    | _ => none
  | .skip k =>
    match s.senders k with
    | .chosen a => some (s.giveBack k a)
    | _ => none
  | .loadOpen k =>
    match s.senders k with
    | .chosen a =>
      if ((s.workers a.worker).lanes a.lane).receiverOpen then some (s.setSender k (.opened a))
      else some (s.giveBack k a)
    | _ => none
  | .loadState k =>
    match s.senders k with
    | .opened a =>
      let lane := (s.workers a.worker).lanes a.lane
      if lane.active then some (s.setSender k (.loaded a lane.epoch)) else some (s.giveBack k a)
    | _ => none
  | .push k =>
    match s.senders k with
    | .loaded a epoch =>
      match (s.workers a.worker).act (.push a.lane ⟨a.packet, epoch⟩ a.force) with
      | some worker => some ((s.setWorker a.worker worker).setSender k .idle)
      | none => some (s.giveBack k a)
    | _ => none
  | .drop k =>
    match s.senders k with
    | .holding _ _ => some (s.setSender k .idle)
    | _ => none
  | .recv w c => s.session w (.recv c)
  | .close w c => s.session w (.close c)
  | .markUnhealthy w => s.session w .markUnhealthy
  | .stop w => s.session w .stop
  | .steal w => s.session w .steal
  | .redispatch w c =>
    match s.senders (.session w), (s.workers w).drained with
    | .idle, packet :: _ =>
      (s.session w .redispatch).map fun s => s.setSender (.session w) (.holding packet c)
    | _, _ => none
  | .unregister w =>
    match s.senders (.session w) with
    | .idle => s.session w .unregister
    | _ => none

/-- What an event is to a worker. -/
def deed (s : System ω ι π) (w : ω) : Event ω ι π → Option (Deed π)
  | .push k =>
    match s.senders k with
    | .loaded a epoch =>
      if a.worker = w then some (.push a.lane ⟨a.packet, epoch⟩ a.force) else none
    | _ => none
  | .recv v c => if v = w then some (.recv c) else none
  | .close v c => if v = w then some (.close c) else none
  | .markUnhealthy v => if v = w then some .markUnhealthy else none
  | .stop v => if v = w then some .stop else none
  | .steal v => if v = w then some .steal else none
  | .redispatch v _ => if v = w then some .redispatch else none
  | .unregister v => if v = w then some .unregister else none
  | .take _ _ _ | .choose _ _ _ | .skip _ | .loadOpen _ | .loadState _ | .drop _ => none

end System

/-! ### What a teardown should do -/

/-- The worker is unregistered and nobody is in the middle of a send to it. -/
def Ended (s : System ω ι π) (w : ω) : Prop :=
  (s.workers w).phase = .unregistered ∧ ∀ k, ∀ a ∈ (s.senders k).attempt, a.worker ≠ w

/-- The queues are empty; what they accepted was read by the writer, evicted, or taken by
`drain_uplink`, all of which has been dispatched again. -/
structure Cleared (w : Worker π) : Prop where
  empty : ∀ c, (w.lanes c).queue = []
  accounted : ∀ c, (w.lanes c).accepted = (w.lanes c).fates.map Prod.snd
  fates : ∀ c, ∀ f ∈ (w.lanes c).fates, f.1 ≠ .stale
  redispatched : w.redispatched = (w.lanes .small).took .stolen ++
    (w.lanes .medium).took .stolen ++ (w.lanes .bulk).took .stolen

/-- A push that the queue accepts comes before `drain_uplink` has found the queue empty. -/
def InTime [DecidableEq ω] [DecidableEq ι] (w : ω) (s : System ω ι π) (e : Event ω ι π) : Prop :=
  ∀ c queued force, s.deed w e = some (.push c queued force) →
    force ∨ ((s.workers w).lanes c).full = false → (s.workers w).phase.past c = false

/-! ### What one step does -/

section Worker

variable {w w' : Worker π} {d : Deed π}

/-- The deeds that take place, by what they do to the worker. -/
inductive Acted (w : Worker π) : Deed π → Worker π → Prop
  | pushed {c : PacketClass} {queued : QueuedPacket π} {force : Bool}
      (haccepted : force ∨ (w.lanes c).full = false) :
      Acted w (.push c queued force) (w.set c ((w.lanes c).put queued))
  | received {c : PacketClass} {queued : QueuedPacket π} {queue : List (QueuedPacket π)}
      (hopen : (w.lanes c).receiverOpen) (hqueue : (w.lanes c).queue = queued :: queue) :
      Acted w (.recv c) (w.set c ((w.lanes c).give ((w.lanes c).verdict queued)))
  | closed {c : PacketClass} : Acted w (.close c) (w.set c (w.lanes c).close)
  | marked (hphase : w.phase = .running) :
      Acted w .markUnhealthy { w with healthy := false, phase := .stopping }
  | stopped (hphase : w.phase = .stopping) (hclosed : ∀ c, (w.lanes c).receiverOpen = false) :
      Acted w .stop { w with phase := .draining .small }
  | passed {c : PacketClass} (hphase : w.phase = .draining c) (hqueue : (w.lanes c).queue = []) :
      Acted w .steal { w with phase := .next c }
  | stolen {c : PacketClass} {queued : QueuedPacket π} {queue : List (QueuedPacket π)}
      (hphase : w.phase = .draining c) (hqueue : (w.lanes c).queue = queued :: queue) :
      Acted w .steal
        { w.set c ((w.lanes c).give .stolen) with drained := w.drained ++ [queued.packet] }
  | redispatched {packet : π} {drained : List π} (hphase : w.phase = .redispatching)
      (hdrained : w.drained = packet :: drained) :
      Acted w .redispatch { w with drained, redispatched := w.redispatched ++ [packet] }
  | unregistered (hphase : w.phase = .redispatching) (hdrained : w.drained = []) :
      Acted w .unregister { w with phase := .unregistered }

theorem acted (h : w.act d = some w') : Acted w d w' := by
  cases d with
  | push c queued force =>
    simp only [Worker.act] at h
    split_ifs at h with haccepted
    cases h
    exact .pushed haccepted
  | recv c =>
    simp only [Worker.act] at h
    split at h
    · next queued queue hopen hqueue =>
      cases h
      exact .received hopen hqueue
    · cases h
  | close c =>
    cases h
    exact .closed
  | markUnhealthy =>
    simp only [Worker.act] at h
    split_ifs at h with hphase
    cases h
    exact .marked hphase
  | stop =>
    simp only [Worker.act] at h
    split_ifs at h with hready
    cases h
    refine .stopped hready.1 fun c => hready.2 c ?_
    cases c <;> simp
  | steal =>
    simp only [Worker.act] at h
    split at h
    · next c hphase =>
      cases h
      rw [Worker.steal]
      split
      · next hqueue => exact .passed hphase hqueue
      · next queued queue hqueue => exact .stolen hphase hqueue
    · cases h
  | redispatch =>
    simp only [Worker.act] at h
    split at h
    · next packet drained hphase hdrained =>
      cases h
      exact .redispatched hphase hdrained
    · cases h
  | unregister =>
    simp only [Worker.act] at h
    split_ifs at h with hready
    cases h
    exact .unregistered hready.1 hready.2

end Worker

/-! ### The ledger of a queue -/

namespace Lane

/-- Every accepted packet is in the queue or has a fate, in order. -/
def Balanced (l : Lane π) : Prop := l.accepted = l.fates.map Prod.snd ++ l.queue.map (·.packet)

theorem Balanced.give {l : Lane π} (h : l.Balanced) (fate : Fate) : (l.give fate).Balanced := by
  rw [Balanced] at h
  rw [Balanced, Lane.give]
  rcases hqueue : l.queue with _ | ⟨queued, queue⟩
  · simp [h, hqueue]
  · simp [h, hqueue]

theorem Balanced.enqueue {l : Lane π} (h : l.Balanced) (queued : QueuedPacket π) :
    (l.enqueue queued).Balanced := by
  rw [Balanced] at h
  simp [Balanced, Lane.enqueue, h]

theorem Balanced.put {l : Lane π} (h : l.Balanced) (queued : QueuedPacket π) :
    (l.put queued).Balanced := by
  rw [Lane.put]
  split_ifs
  · exact (h.give .evicted).enqueue queued
  · exact h.enqueue queued

theorem Balanced.close {l : Lane π} (h : l.Balanced) : l.close.Balanced := h

theorem put_receiverOpen (l : Lane π) (queued : QueuedPacket π) :
    (l.put queued).receiverOpen = l.receiverOpen := by
  rw [put]
  split_ifs
  · rfl
  · rfl

theorem put_queue_ne_nil (l : Lane π) (queued : QueuedPacket π) : (l.put queued).queue ≠ [] := by
  simp [put, enqueue]

theorem took_give_self (l : Lane π) (fate : Fate) :
    (l.give fate).took fate = l.took fate ++ (l.queue.take 1).map (·.packet) := by
  rcases hqueue : l.queue with _ | ⟨queued, queue⟩
  · simp [took, give, hqueue]
  · simp [took, give, hqueue]

theorem took_give_of_ne (l : Lane π) {fate other : Fate} (hne : fate ≠ other) :
    (l.give fate).took other = l.took other := by
  rcases hqueue : l.queue with _ | ⟨queued, queue⟩
  · simp [took, give, hqueue]
  · simp [took, give, hqueue, hne]

theorem took_put (l : Lane π) (queued : QueuedPacket π) {fate : Fate} (hne : .evicted ≠ fate) :
    (l.put queued).took fate = l.took fate := by
  rw [put]
  split_ifs
  · exact took_give_of_ne l hne
  · rfl

/-- The queue was created active, and nothing in it is of another epoch. -/
structure Fresh (l : Lane π) : Prop where
  active : l.active
  epoch : l.epoch = 0
  queue : ∀ queued ∈ l.queue, queued.epoch = 0
  fates : ∀ f ∈ l.fates, f.1 ≠ .stale

theorem Fresh.give {l : Lane π} (h : l.Fresh) {fate : Fate} (hfate : fate ≠ .stale) :
    (l.give fate).Fresh := by
  refine ⟨h.active, h.epoch, fun queued hq => h.queue queued (List.mem_of_mem_tail hq), ?_⟩
  intro f hf
  rcases List.mem_append.mp hf with hf | hf
  · exact h.fates f hf
  · obtain ⟨queued, _, rfl⟩ := List.mem_map.mp hf
    exact hfate

theorem Fresh.enqueue {l : Lane π} (h : l.Fresh) {queued : QueuedPacket π}
    (hqueued : queued.epoch = 0) : (l.enqueue queued).Fresh := by
  refine ⟨h.active, h.epoch, ?_, h.fates⟩
  intro other hother
  rcases List.mem_append.mp hother with hother | hother
  · exact h.queue other hother
  · rw [List.mem_singleton.mp hother]
    exact hqueued

theorem Fresh.put {l : Lane π} (h : l.Fresh) {queued : QueuedPacket π}
    (hqueued : queued.epoch = 0) : (l.put queued).Fresh := by
  rw [Lane.put]
  split_ifs
  · exact (h.give (by decide)).enqueue hqueued
  · exact h.enqueue hqueued

theorem Fresh.close {l : Lane π} (h : l.Fresh) : l.close.Fresh :=
  ⟨h.active, h.epoch, h.queue, h.fates⟩

theorem Fresh.verdict {l : Lane π} (h : l.Fresh) {queued : QueuedPacket π}
    (hqueued : queued ∈ l.queue) : l.verdict queued = .read := by
  rw [Lane.verdict, if_pos ⟨h.active, (h.queue queued hqueued).trans h.epoch.symm⟩]

end Lane

/-! ### What the worker keeps -/

section Worker

variable {w w' : Worker π} {d : Deed π} {P : Lane π → Prop}

@[simp] theorem Worker.set_lanes_self (w : Worker π) (c : PacketClass) (l : Lane π) :
    (w.set c l).lanes c = l := Function.update_self ..

theorem Worker.set_lanes_of_ne (w : Worker π) {c c' : PacketClass} (l : Lane π) (h : c' ≠ c) :
    (w.set c l).lanes c' = w.lanes c' := Function.update_of_ne h ..

/-- What the new queue and the old ones have. -/
theorem Worker.set_lanes_of (hw : ∀ c, P (w.lanes c)) {c : PacketClass} {l : Lane π} (hl : P l)
    (c' : PacketClass) : P ((w.set c l).lanes c') := by
  by_cases h : c' = c
  · rw [h, Worker.set_lanes_self]
    exact hl
  · rw [Worker.set_lanes_of_ne w l h]
    exact hw c'

theorem Acted.balanced (h : Acted w d w') (hw : ∀ c, (w.lanes c).Balanced) (c : PacketClass) :
    (w'.lanes c).Balanced := by
  cases h with
  | pushed => exact Worker.set_lanes_of hw ((hw _).put _) c
  | received => exact Worker.set_lanes_of hw ((hw _).give _) c
  | closed => exact Worker.set_lanes_of hw (hw _).close c
  | stolen => exact Worker.set_lanes_of hw ((hw _).give _) c
  | marked | stopped | passed | redispatched | unregistered => exact hw c

theorem Acted.fresh (h : Acted w d w') (hw : ∀ c, (w.lanes c).Fresh)
    (hpush : ∀ c queued force, d = .push c queued force → queued.epoch = 0) (c : PacketClass) :
    (w'.lanes c).Fresh := by
  cases h with
  | pushed => exact Worker.set_lanes_of hw ((hw _).put (hpush _ _ _ rfl)) c
  | @received _ queued _ _ hqueue =>
    refine Worker.set_lanes_of hw ((hw _).give ?_) c
    rw [(hw _).verdict (hqueue ▸ List.mem_cons_self)]
    decide
  | closed => exact Worker.set_lanes_of hw (hw _).close c
  | stolen => exact Worker.set_lanes_of hw ((hw _).give (by decide)) c
  | marked | stopped | passed | redispatched | unregistered => exact hw c

/-- The writer is still there. -/
def Phase.writing : Phase → Bool
  | .running | .stopping => true
  | _ => false

theorem Phase.past_writing {p : Phase} {c : PacketClass} (h : p.past c) : p.writing = false := by
  cases p with
  | running | stopping => exact absurd h Bool.false_ne_true
  | _ => rfl

/-- After the writer its receivers are gone. -/
def Closed (w : Worker π) : Prop := w.phase.writing = false → ∀ c, (w.lanes c).receiverOpen = false

theorem Acted.closed_of (h : Acted w d w') (hw : Closed w) : Closed w' := by
  intro hwriting
  have hset : ∀ c (l : Lane π), w.phase.writing = false → l.receiverOpen = false →
      ∀ c', ((w.set c l).lanes c').receiverOpen = false := by
    intro c l hphase hl
    exact Worker.set_lanes_of (P := fun l => l.receiverOpen = false) (hw hphase) hl
  cases h with
  | @pushed c queued =>
    exact hset c _ hwriting ((Lane.put_receiverOpen _ queued).trans (hw hwriting c))
  | @received c => exact hset c _ hwriting (hw hwriting c)
  | @closed c => exact hset c _ hwriting rfl
  | @stolen c => exact hset c _ hwriting (hw hwriting c)
  | marked => cases hwriting
  | stopped _ hclosed => exact hclosed
  | passed hphase =>
    refine hw ?_
    rw [hphase]
    rfl
  | redispatched => exact hw hwriting
  | unregistered hphase =>
    refine hw ?_
    rw [hphase]
    rfl

/-- The queues that `drain_uplink` has found empty are empty. -/
def Drained (w : Worker π) : Prop := ∀ c, w.phase.past c → (w.lanes c).queue = []

theorem past_next {c c' : PacketClass} (h : (Phase.next c).past c') :
    c' = c ∨ (Phase.draining c).past c' := by
  revert h
  cases c <;> cases c' <;> decide

theorem past_of_next {c c' : PacketClass} (h : (Phase.draining c).past c') :
    (Phase.next c).past c' := by
  revert h
  cases c <;> cases c' <;> decide

theorem not_past_draining (c : PacketClass) : (Phase.draining c).past c = false := by
  cases c <;> rfl

theorem Acted.accepted {c : PacketClass} {queued : QueuedPacket π} {force : Bool}
    (h : Acted w (.push c queued force) w') : force ∨ (w.lanes c).full = false := by
  cases h with
  | pushed haccepted => exact haccepted

/-- A queue that has been passed changes by pushes only. -/
theorem Acted.queue_of_past (h : Acted w d w') (hw : Closed w) {c : PacketClass}
    (hpast : w.phase.past c) (hpush : ∀ queued force, d ≠ .push c queued force) :
    (w'.lanes c).queue = (w.lanes c).queue := by
  cases h with
  | @pushed c' =>
    have hne : c ≠ c' := by
      rintro rfl
      exact hpush _ _ rfl
    rw [Worker.set_lanes_of_ne w _ hne]
  | @received c' _ _ hopen =>
    have hne : c ≠ c' := by
      rintro rfl
      rw [hw (Phase.past_writing hpast) c] at hopen
      cases hopen
    rw [Worker.set_lanes_of_ne w _ hne]
  | @closed c' =>
    by_cases hc : c = c'
    · rw [hc, Worker.set_lanes_self]
      rfl
    · rw [Worker.set_lanes_of_ne w _ hc]
  | @stolen c' _ _ hphase =>
    have hne : c ≠ c' := by
      rintro rfl
      rw [hphase, not_past_draining] at hpast
      cases hpast
    show ((w.set c' _).lanes c).queue = _
    rw [Worker.set_lanes_of_ne w _ hne]
  | marked | stopped | passed | redispatched | unregistered => rfl

/-- A queue is passed when it is found empty. -/
theorem Acted.past_of (h : Acted w d w') {c : PacketClass} (hpast : w'.phase.past c) :
    w.phase.past c ∨ (w'.lanes c).queue = [] := by
  cases h with
  | @passed c' hphase hqueue =>
    rcases past_next hpast with rfl | hbefore
    · exact .inr hqueue
    · exact .inl (hphase ▸ hbefore)
  | pushed | received | closed | stolen | redispatched => exact .inl hpast
  | marked | stopped => cases hpast
  | unregistered hphase =>
    left
    rw [hphase]
    rfl

theorem Acted.past (h : Acted w d w') {c : PacketClass} (hpast : w.phase.past c) :
    w'.phase.past c := by
  cases h with
  | passed hphase => exact past_of_next (hphase ▸ hpast)
  | pushed | received | closed | stolen | redispatched => exact hpast
  | marked hphase | stopped hphase =>
    rw [hphase] at hpast
    cases hpast
  | unregistered => rfl

/-- Drained queues stay drained exactly if no push comes too late. -/
theorem Acted.drained_iff (h : Acted w d w') (hc : Closed w) (hw : Drained w) :
    Drained w' ↔ ∀ c queued force, d = .push c queued force → w.phase.past c = false := by
  constructor
  · rintro hw' c queued force rfl
    by_contra hpast
    have hempty := hw' c (h.past (Bool.eq_true_of_not_eq_false hpast))
    cases h with
    | pushed =>
      rw [Worker.set_lanes_self] at hempty
      exact Lane.put_queue_ne_nil _ _ hempty
  · intro hpush c hpast'
    rcases h.past_of hpast' with hpast | hempty
    · rw [h.queue_of_past hc hpast, hw c hpast]
      rintro queued force rfl
      exact Bool.false_ne_true ((hpush c queued force rfl).symm.trans hpast)
    · exact hempty

/-- What lies in a queue that has been passed lies there for ever. -/
theorem Acted.not_drained (h : Acted w d w') (hc : Closed w) (hw : ¬ Drained w) : ¬ Drained w' := by
  intro hw'
  refine hw fun c hpast => ?_
  have hempty := hw' c (h.past hpast)
  by_cases hpush : ∃ queued force, d = .push c queued force
  · obtain ⟨queued, force, rfl⟩ := hpush
    cases h with
    | pushed =>
      rw [Worker.set_lanes_self] at hempty
      exact absurd hempty (Lane.put_queue_ne_nil _ _)
  · rw [← h.queue_of_past hc hpast fun queued force hd => hpush ⟨queued, force, hd⟩]
    exact hempty

/-! ### What `drain_uplink` took -/

def Worker.stolen (w : Worker π) : List π :=
  (w.lanes .small).took .stolen ++ (w.lanes .medium).took .stolen ++ (w.lanes .bulk).took .stolen

/-- The queues that `drain_uplink` comes to later. -/
def Phase.ahead : Phase → PacketClass → Bool
  | .running, _ | .stopping, _ => true
  | .draining .small, c => c ≠ .small
  | .draining .medium, c => c = .bulk
  | .draining .bulk, _ | .redispatching, _ | .unregistered, _ => false

/-- What has been taken is to be dispatched again, or has been; nothing comes from the
queues that are still ahead. -/
structure Stocked (w : Worker π) : Prop where
  ahead : ∀ c, w.phase.ahead c → (w.lanes c).took .stolen = []
  stolen : w.stolen = w.redispatched ++ w.drained

theorem Worker.stolen_set_of_took {c : PacketClass} {l : Lane π}
    (hl : l.took .stolen = (w.lanes c).took .stolen) (c' : PacketClass) :
    ((w.set c l).lanes c').took .stolen = (w.lanes c').took .stolen := by
  by_cases h : c' = c
  · rw [h, Worker.set_lanes_self, hl]
  · rw [Worker.set_lanes_of_ne w l h]

theorem Lane.verdict_ne (l : Lane π) (queued : QueuedPacket π) : l.verdict queued ≠ .stolen := by
  rw [Lane.verdict]
  split_ifs
  · decide
  · decide

/-- Nothing that is taken is of interest here. -/
theorem Stocked.set (h : Stocked w) {c : PacketClass} {l : Lane π}
    (hl : l.took .stolen = (w.lanes c).took .stolen) : Stocked (w.set c l) := by
  have hset := Worker.stolen_set_of_took hl
  refine ⟨fun c' hahead => (hset c').trans (h.ahead c' hahead), ?_⟩
  rw [Worker.stolen, hset, hset, hset]
  exact h.stolen

theorem ahead_of_next {c c' : PacketClass} (h : (Phase.next c).ahead c') :
    (Phase.draining c).ahead c' := by
  revert h
  cases c <;> cases c' <;> decide

/-- What is taken next comes after all that has been taken. -/
theorem stolen_set_give {c : PacketClass} {queued : QueuedPacket π}
    {queue : List (QueuedPacket π)} (hphase : w.phase = .draining c)
    (hqueue : (w.lanes c).queue = queued :: queue)
    (hahead : ∀ c, w.phase.ahead c → (w.lanes c).took .stolen = []) :
    (w.set c ((w.lanes c).give .stolen)).stolen = w.stolen ++ [queued.packet] := by
  have htook : ((w.lanes c).give .stolen).took .stolen =
      (w.lanes c).took .stolen ++ [queued.packet] := by
    rw [Lane.took_give_self, hqueue]
    rfl
  rw [hphase] at hahead
  cases c with
  | small =>
    have hmedium := hahead .medium rfl
    have hbulk := hahead .bulk rfl
    simp [Worker.stolen, Worker.set, htook, hmedium, hbulk]
  | medium =>
    have hbulk := hahead .bulk rfl
    simp [Worker.stolen, Worker.set, htook, hbulk]
  | bulk => simp [Worker.stolen, Worker.set, htook]

theorem Acted.stocked (h : Acted w d w') (hw : Stocked w) : Stocked w' := by
  cases h with
  | pushed => exact hw.set (Lane.took_put _ _ (by decide))
  | received => exact hw.set (Lane.took_give_of_ne _ (Lane.verdict_ne _ _))
  | closed => exact hw.set rfl
  | marked hphase => exact ⟨fun c _ => hw.ahead c (by rw [hphase]; rfl), hw.stolen⟩
  | stopped hphase => exact ⟨fun c _ => hw.ahead c (by rw [hphase]; rfl), hw.stolen⟩
  | passed hphase =>
    refine ⟨fun c hahead => hw.ahead c ?_, hw.stolen⟩
    rw [hphase]
    exact ahead_of_next hahead
  | @stolen c queued queue hphase hqueue =>
    have htook : (w.set c ((w.lanes c).give .stolen)).stolen = w.stolen ++ [queued.packet] :=
      stolen_set_give hphase hqueue hw.ahead
    refine ⟨fun c' (hahead : w.phase.ahead c') => ?_, ?_⟩
    · have hne : c' ≠ c := by
        rintro rfl
        rw [hphase] at hahead
        cases c' <;> cases hahead
      show ((w.set c _).lanes c').took .stolen = []
      rw [Worker.set_lanes_of_ne w _ hne]
      exact hw.ahead c' hahead
    · show (w.set c _).stolen = w.redispatched ++ (w.drained ++ [queued.packet])
      rw [htook, hw.stolen, List.append_assoc]
  | redispatched _ hdrained =>
    refine ⟨hw.ahead, ?_⟩
    show w.stolen = _
    rw [hw.stolen, hdrained, List.append_assoc, List.singleton_append]
  | unregistered => exact ⟨fun c hahead => (nomatch hahead), hw.stolen⟩

/-- A worker is unregistered when all it took is out. -/
theorem Acted.out (h : Acted w d w') (hw : w.phase = .unregistered → w.drained = []) :
    w'.phase = .unregistered → w'.drained = [] := by
  intro hphase
  cases h with
  | pushed | received | closed => exact hw hphase
  | marked | stopped => cases hphase
  | @passed c => cases c <;> cases hphase
  | stolen hdraining => cases hdraining.symm.trans hphase
  | redispatched hredispatching => cases hredispatching.symm.trans hphase
  | unregistered _ hdrained => exact hdrained

end Worker

/-! ### The system -/

section System

variable [DecidableEq ω] [DecidableEq ι] {s t : System ω ι π} {e : Event ω ι π}

/-- What an event does to a worker: a deed, a push that is refused, or nothing. -/
inductive Happens (s : System ω ι π) (w : ω) (e : Event ω ι π) (worker : Worker π) : Prop
  | deed {d : Deed π} (hdeed : s.deed w e = some d) (hacted : Acted (s.workers w) d worker)
  | refused {c : PacketClass} {queued : QueuedPacket π} {force : Bool}
      (hdeed : s.deed w e = some (.push c queued force))
      (hfull : ¬ (force ∨ ((s.workers w).lanes c).full = false)) (hsame : worker = s.workers w)
  | nothing (hdeed : s.deed w e = none) (hsame : worker = s.workers w)

omit [DecidableEq ι] in
theorem Happens.session {v : ω} {d : Deed π} (h : s.session v d = some t) (w : ω)
    (hdeed : s.deed w e = if v = w then some d else none) : Happens s w e (t.workers w) := by
  obtain ⟨worker, hact, rfl⟩ := Option.map_eq_some_iff.mp h
  by_cases hvw : v = w
  · subst hvw
    rw [if_pos rfl] at hdeed
    refine .deed hdeed ?_
    show Acted _ d (Function.update s.workers v worker v)
    rw [Function.update_self]
    exact acted hact
  · rw [if_neg hvw] at hdeed
    refine .nothing hdeed ?_
    exact Function.update_of_ne (Ne.symm hvw) ..

theorem happens (h : s.step e = some t) (w : ω) : Happens s w e (t.workers w) := by
  cases e with
  | take | choose | skip | loadOpen | loadState | drop =>
    simp only [System.step] at h
    refine .nothing rfl ?_
    split at h
    · first
        | (cases h; rfl)
        | (split at h <;> cases h <;> rfl)
    · cases h
  | push k =>
    simp only [System.step] at h
    split at h
    · next a epoch hk =>
      have hdeed : s.deed w (.push k) =
          if a.worker = w then some (.push a.lane ⟨a.packet, epoch⟩ a.force) else none := by
        simp [System.deed, hk]
      by_cases hw : a.worker = w
      · subst hw
        rw [if_pos rfl] at hdeed
        split at h
        · next worker hact =>
          cases h
          refine .deed hdeed ?_
          show Acted _ _ (Function.update s.workers a.worker worker a.worker)
          rw [Function.update_self]
          exact acted hact
        · next hact =>
          cases h
          refine .refused hdeed (fun haccepted => ?_) rfl
          simp only [Worker.act, if_pos haccepted] at hact
          cases hact
      · rw [if_neg hw] at hdeed
        refine .nothing hdeed ?_
        split at h
        · cases h
          exact Function.update_of_ne (Ne.symm hw) ..
        · cases h
          rfl
    · cases h
  | recv v c => exact .session h w rfl
  | close v c => exact .session h w rfl
  | markUnhealthy v => exact .session h w rfl
  | stop v => exact .session h w rfl
  | steal v => exact .session h w rfl
  | redispatch v c =>
    simp only [System.step] at h
    split at h
    · obtain ⟨u, hu, rfl⟩ := Option.map_eq_some_iff.mp h
      exact Happens.session hu w rfl
    · cases h
  | unregister v =>
    simp only [System.step] at h
    split at h
    · exact Happens.session h w rfl
    · cases h

omit [DecidableEq ι] in
theorem Happens.invariant {P : Worker π → Prop} {w : ω} {worker : Worker π}
    (h : Happens s w e worker) (hP : P (s.workers w))
    (hacted : ∀ d, Acted (s.workers w) d worker → P worker) : P worker := by
  cases h with
  | deed _ h => exact hacted _ h
  | refused _ _ hsame => exact hsame ▸ hP
  | nothing _ hsame => exact hsame ▸ hP

/-- The worker's queues stay drained exactly if the step is in time. -/
theorem drained_step_iff (w : ω) (hc : Closed (s.workers w)) (hw : Drained (s.workers w))
    (h : s.step e = some t) : Drained (t.workers w) ↔ InTime w s e := by
  cases happens h w with
  | @deed d hdeed hacted =>
    rw [hacted.drained_iff hc hw]
    constructor
    · intro hpush c queued force hd _
      exact hpush c queued force (Option.some.inj (hdeed.symm.trans hd))
    · rintro hok c queued force rfl
      exact hok c queued force hdeed hacted.accepted
  | refused hdeed hfull hsame =>
    rw [hsame]
    refine iff_of_true hw fun c queued force hd haccepted => ?_
    cases hdeed.symm.trans hd
    exact absurd haccepted hfull
  | nothing hdeed hsame =>
    rw [hsame]
    refine iff_of_true hw fun c queued force hd _ => ?_
    cases hdeed.symm.trans hd

theorem not_drained_step (w : ω) (hc : Closed (s.workers w)) (hw : ¬ Drained (s.workers w))
    (h : s.step e = some t) : ¬ Drained (t.workers w) := by
  cases happens h w with
  | deed _ hacted => exact hacted.not_drained hc hw
  | refused _ _ hsame => exact hsame ▸ hw
  | nothing _ hsame => exact hsame ▸ hw

/-- What holds of every worker, whatever is sent to it. -/
structure Kept (w : Worker π) : Prop where
  closed : Closed w
  balanced : ∀ c, (w.lanes c).Balanced
  stocked : Stocked w
  out : w.phase = .unregistered → w.drained = []

theorem Kept.step {w : ω} (hw : Kept (s.workers w)) (h : s.step e = some t) :
    Kept (t.workers w) :=
  (happens h w).invariant hw fun _ hacted =>
    ⟨hacted.closed_of hw.closed, hacted.balanced hw.balanced, hacted.stocked hw.stocked,
      hacted.out hw.out⟩

omit [DecidableEq ω] [DecidableEq ι] in
theorem kept_start (capacity : PacketClass → ℕ) (w : ω) :
    Kept ((System.start ω ι π capacity).workers w) :=
  ⟨fun hwriting => (nomatch hwriting), fun _ => rfl, ⟨fun _ _ => rfl, rfl⟩, fun _ => rfl⟩

/-- Nothing is queued, or about to be pushed, under another epoch. -/
structure Current (s : System ω ι π) : Prop where
  fresh : ∀ w c, ((s.workers w).lanes c).Fresh
  loaded : ∀ k a epoch, s.senders k = .loaded a epoch → epoch = 0

omit [DecidableEq ω] [DecidableEq ι] in
theorem current_start (capacity : PacketClass → ℕ) : Current (System.start ω ι π capacity) :=
  ⟨fun _ _ => ⟨rfl, rfl, fun _ h => (nomatch h), fun _ h => nomatch h⟩, fun _ _ _ h => nomatch h⟩

omit [DecidableEq ω] in
theorem System.setSender_eq {k j : Caller ω ι} {sender x : Sender ω π} [DecidableEq ω]
    (h : (s.setSender k sender).senders j = x) : s.senders j = x ∨ sender = x := by
  change Function.update s.senders k sender j = x at h
  by_cases hj : j = k
  · rw [hj, Function.update_self] at h
    exact .inr h
  · rw [Function.update_of_ne hj] at h
    exact .inl h

/-- A state that a sender has read is that of the queue. -/
theorem loaded_step (hstep : s.step e = some t) {k : Caller ω ι} {a : Attempt ω π} {epoch : ℕ}
    (hk : t.senders k = .loaded a epoch) :
    s.senders k = .loaded a epoch ∨ epoch = ((s.workers a.worker).lanes a.lane).epoch := by
  have hset : ∀ (u : System ω ι π) (j : Caller ω ι) (sender : Sender ω π),
      u.senders = s.senders → (∀ a epoch, sender ≠ .loaded a epoch) →
      (u.setSender j sender).senders k = .loaded a epoch → s.senders k = .loaded a epoch := by
    intro u j sender hu hsender h
    rcases System.setSender_eq h with h | h
    · exact hu ▸ h
    · exact absurd h (hsender a epoch)
  have hsession : ∀ {u : System ω ι π} {w : ω} {d : Deed π}, s.session w d = some u →
      u.senders = s.senders := by
    intro u w d h
    obtain ⟨_, _, rfl⟩ := Option.map_eq_some_iff.mp h
    rfl
  -- a state is read in `load_state` only; the other steps of a sender leave that phase
  cases e with
  | loadState j =>
    simp only [System.step] at hstep
    split at hstep
    · next b hj =>
      split_ifs at hstep
      · cases hstep
        rcases System.setSender_eq hk with h | h
        · exact .inl h
        · cases h
          exact .inr rfl
      · cases hstep
        exact .inl (hset s j _ rfl (by simp) hk)
    · cases hstep
  | push j =>
    simp only [System.step] at hstep
    left
    split at hstep
    · split at hstep
      · cases hstep
        exact hset _ j _ rfl (by simp) hk
      · cases hstep
        exact hset s j _ rfl (by simp) hk
    · cases hstep
  | take | choose | skip | loadOpen | drop =>
    simp only [System.step] at hstep
    left
    split at hstep
    · first
        | (cases hstep; exact hset s _ _ rfl (by simp) hk)
        | (split at hstep <;> cases hstep <;> exact hset s _ _ rfl (by simp) hk)
    · cases hstep
  | redispatch =>
    simp only [System.step] at hstep
    left
    split at hstep
    · obtain ⟨u, hu, rfl⟩ := Option.map_eq_some_iff.mp hstep
      exact hset u _ _ (hsession hu) (by simp) hk
    · cases hstep
  | unregister =>
    simp only [System.step] at hstep
    split at hstep
    · exact .inl (hsession hstep ▸ hk)
    · cases hstep
  | recv | close | markUnhealthy | stop | steal => exact .inl (hsession hstep ▸ hk)

theorem Current.step (h : Current s) (hstep : s.step e = some t) : Current t := by
  refine ⟨fun w => ?_, fun k a epoch hk => ?_⟩
  rotate_left
  · rcases loaded_step hstep hk with hk | hepoch
    · exact h.loaded k a epoch hk
    · exact hepoch.trans (h.fresh a.worker a.lane).epoch
  cases happens hstep w with
  | @deed d hdeed hacted =>
    refine hacted.fresh (h.fresh w) ?_
    rintro c queued force rfl
    cases e with
    | push k =>
      simp only [System.deed] at hdeed
      split at hdeed
      · next a epoch hk =>
        split_ifs at hdeed
        cases hdeed
        exact h.loaded k a epoch hk
      · cases hdeed
    | _ => simp [System.deed] at hdeed
  | refused _ _ hsame => exact hsame ▸ h.fresh w
  | nothing _ hsame => exact hsame ▸ h.fresh w

/-! ### Whole runs -/

/-- A queue that the drain has passed is empty at the end of a run exactly if every push
into it was in time. -/
theorem drained_run_iff (capacity : PacketClass → ℕ) (w : ω) {es : List (Event ω ι π)}
    (hrun : run System.step (System.start ω ι π capacity) es = some t) :
    Drained (t.workers w) ↔ Admits System.step (InTime w) (System.start ω ι π capacity) es := by
  have hkept : ∀ (s : System ω ι π) e s', Kept (s.workers w) → s.step e = some s' →
      Kept (s'.workers w) := fun _ _ _ hw h => hw.step h
  have hstart := kept_start (ι := ι) (π := π) capacity w
  rw [← always_iff_last (P := fun s : System ω ι π => Drained (s.workers w)) hkept
    (fun _ _ _ hw hlost h => not_drained_step w hw.closed hlost h) hstart hrun]
  exact always_iff_admits hkept (fun _ _ _ hw hd h => drained_step_iff w hw.closed hd h) hstart
    fun _ hpast => nomatch hpast

/-- At the end nothing is stranded and everything is accounted for, exactly if every
push into a queue of the worker came before `drain_uplink` had found that queue empty. -/
theorem teardown_strands_nothing_iff (capacity : PacketClass → ℕ) {es : List (Event ω ι π)}
    (hrun : run System.step (System.start ω ι π capacity) es = some t) {w : ω} (hend : Ended t w) :
    Cleared (t.workers w) ↔ Admits System.step (InTime w) (System.start ω ι π capacity) es := by
  rw [← drained_run_iff capacity w hrun]
  constructor
  · intro h c _
    exact h.empty c
  · intro h
    have hkept : Kept (t.workers w) :=
      run_of_step (P := fun s : System ω ι π => Kept (s.workers w))
        (fun _ _ _ hw hstep => hw.step hstep) (kept_start capacity w) hrun
    have hcurrent : Current t :=
      run_of_step (fun _ _ _ hs hstep => hs.step hstep) (current_start capacity) hrun
    have hempty : ∀ c, ((t.workers w).lanes c).queue = [] := by
      intro c
      refine h c ?_
      rw [hend.1]
      rfl
    refine ⟨hempty, fun c => ?_, fun c => (hcurrent.fresh w c).fates, ?_⟩
    · have hbalanced := hkept.balanced c
      rw [Lane.Balanced, hempty c, List.map_nil, List.append_nil] at hbalanced
      exact hbalanced
    · have hstolen := hkept.stocked.stolen
      rw [hkept.out hend.1, List.append_nil] at hstolen
      exact hstolen.symm

end System

/-- The capacities of the queues of a session. -/
def workerCapacity : PacketClass → ℕ
  | .small => 16
  | .medium => 64
  | .bulk => 128

/-- A packet is pushed, taken by `drain_uplink`, dispatched again and dropped, since
there is no other worker. -/
def timelyRun : List (Event Unit Unit ℕ) :=
  [.take () 7 .small, .choose (.dispatcher ()) () false, .loadOpen (.dispatcher ()),
    .loadState (.dispatcher ()), .markUnhealthy (), .push (.dispatcher ()), .close () .small,
    .close () .medium, .close () .bulk, .stop (), .steal (), .steal (), .steal (), .steal (),
    .redispatch () .small, .drop (.session ()), .unregister ()]

theorem timely_run_in_time :
    Admits System.step (InTime ()) (System.start Unit Unit ℕ workerCapacity) timelyRun := by
  refine (teardown_strands_nothing_iff workerCapacity rfl ⟨rfl, ?_⟩).mp ⟨?_, ?_, ?_, rfl⟩
  · intro k a ha
    cases k <;> cases ha
  · intro c
    cases c <;> rfl
  · intro c
    cases c <;> rfl
  · intro c
    cases c <;> decide

/-- A send that has read `receiver_open` pushes after the drain. -/
def lateRun : List (Event Unit Unit ℕ) :=
  [.take () 7 .small, .choose (.dispatcher ()) () false, .loadOpen (.dispatcher ()),
    .loadState (.dispatcher ()), .markUnhealthy (), .close () .small, .close () .medium,
    .close () .bulk, .stop (), .steal (), .steal (), .steal (), .unregister (),
    .push (.dispatcher ())]

/-- The packet is left in the queue of a worker that nobody will look at again. -/
theorem late_push_stranded :
    ∃ t, run System.step (System.start Unit Unit ℕ workerCapacity) lateRun = some t ∧
      Ended t () ∧ ((t.workers ()).lanes .small).queue = [⟨7, 0⟩] ∧ ¬ Cleared (t.workers ()) := by
  refine ⟨_, rfl, ⟨rfl, ?_⟩, rfl, fun h => nomatch h.empty .small⟩
  intro k a ha
  cases k <;> cases ha

end Csqtt.Teardown
