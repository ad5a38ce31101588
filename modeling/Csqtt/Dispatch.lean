/-
Where the dispatcher puts a packet.

Queues and health flags are shared by every copy of a table, so a worker holds the
names of its three queues and of its flag, and the `Plane` has what is behind them.  A
packet is a buffer with an identity of its own; `bytes` reads it.  A dispatch is one
step here: what other threads do between its steps is not modelled.

`enqueue_selected_worker` asks the workers near the slot of the ticket, the uncongested
ones first; when none of them has room, `replace_oldest_in_selected_queue` forces the
packet on the first of the healthy workers with the shortest queue, open or not.

* `dispatch_keeps_iff` — when a dispatched packet is kept, given that some registered
  worker could take it;
* `closed_shortest_queue_drops` — a closed queue that is shortest drops it.
-/
import Mathlib.Data.List.MinMax
import Csqtt.FastPath
import Csqtt.PacketQueue

namespace Csqtt.Dispatcher

open StripedScheduler FlowFrame PacketQueue

variable {π : Type*}

/-! ### Queues -/

/-- What `send_inner` reads of a queue; `active` and `epoch` are the halves of `state`. -/
structure Queue (π : Type*) where
  capacity : ℕ
  queue : List (QueuedPacket π) := []
  epoch : ℕ := 0
  active : Bool := true
  receiverOpen : Bool := true

namespace Queue

def full (q : Queue π) : Bool := q.capacity ≤ q.queue.length

def queued (q : Queue π) : ℕ := q.queue.length

def isCongested (q : Queue π) : Bool := 0 < q.capacity && q.capacity ≤ q.queued * 2

/-- `send` gets past its checks. -/
def accepts (q : Queue π) : Bool := q.receiverOpen && q.active

def hasRoom (q : Queue π) : Bool := q.accepts && !q.full

/-- The packet at the end; a full queue drops its oldest one. -/
def forcePush (q : Queue π) (packet : π) : Queue π :=
  { q with queue := (if q.full then q.queue.tail else q.queue) ++ [⟨packet, q.epoch⟩] }

/-- `send_inner`; none when the packet is given back. -/
def send (q : Queue π) (packet : π) (force : Bool) : Option (Queue π) :=
  if !q.receiverOpen then none
  else if !q.active then none
  else if force then some (q.forcePush packet)
  else if q.full then none
  else some { q with queue := q.queue ++ [⟨packet, q.epoch⟩] }

theorem trySend_eq (q : Queue π) (packet : π) :
    q.send packet false = if q.hasRoom then some (q.forcePush packet) else none := by
  rw [send, hasRoom, accepts, forcePush]
  rcases q.receiverOpen <;> rcases q.active <;> rcases q.full <;> rfl

theorem forceSend_eq (q : Queue π) (packet : π) :
    q.send packet true = if q.accepts then some (q.forcePush packet) else none := by
  rw [send, accepts]
  rcases q.receiverOpen <;> rcases q.active <;> rfl

end Queue

/-! ### Workers -/

/-- The names of a worker's queues and of its health flag. -/
structure WorkerChannels where
  latency : ℕ
  priority : ℕ
  bulk : ℕ
  healthy : ℕ
  deriving DecidableEq

def WorkerChannels.queueForClass (w : WorkerChannels) : PacketClass → ℕ
  | .small => w.latency
  | .medium => w.priority
  | .bulk => w.bulk

structure Plane (π : Type*) where
  queues : ℕ → Queue π
  healthy : ℕ → Bool

namespace Plane

def isHealthy (plane : Plane π) (w : WorkerChannels) : Bool := plane.healthy w.healthy

/-- The queue of a worker for this class. -/
def queueOf (plane : Plane π) (c : PacketClass) (w : WorkerChannels) : Queue π :=
  plane.queues (w.queueForClass c)

def set (plane : Plane π) (name : ℕ) (q : Queue π) : Plane π :=
  { plane with queues := Function.update plane.queues name q }

/-- The packet is in this queue. -/
def put (plane : Plane π) (name : ℕ) (packet : π) : Plane π :=
  plane.set name ((plane.queues name).forcePush packet)

/-- `try_send` or `force_send` of a worker's queue. -/
def send (plane : Plane π) (name : ℕ) (packet : π) (force : Bool) : Option (Plane π) :=
  ((plane.queues name).send packet force).map (plane.set name)

variable (plane : Plane π) (workers : List WorkerChannels) (slot : ℕ) (c : PacketClass)

/-- The slots that are searched from the ticket's on. -/
def search : ℕ :=
  if workers[slot]?.any plane.isHealthy then 1 + min 2 (workers.length - 1) else workers.length

def window : List WorkerChannels :=
  (List.range (plane.search workers slot)).filterMap fun offset =>
    workers[(slot + offset) % workers.length]?

/-- One pass over the window. -/
def offer (preferClear : Bool) (packet : π) : List WorkerChannels → Option (Plane π)
  | [] => none
  | w :: rest =>
    if !plane.isHealthy w then offer preferClear packet rest
    else if preferClear && (plane.queueOf c w).isCongested then offer preferClear packet rest
    else
      match plane.send (w.queueForClass c) packet false with
      | some plane => some plane
      | none => offer preferClear packet rest

def enqueueSelectedWorker (packet : π) : Option (Plane π) :=
  if workers.length = 0 then none
  else
    match plane.offer c true packet (plane.window workers slot) with
    | some plane => some plane
    | none => plane.offer c false packet (plane.window workers slot)

/-- The first of the healthy workers with the shortest queue. -/
def shortest : Option WorkerChannels :=
  (workers.filter plane.isHealthy).argmin fun w => (plane.queueOf c w).queued

def replaceOldestInSelectedQueue (packet : π) : Option (Plane π) :=
  if workers.length = 0 then none
  else
    match plane.shortest workers c with
    | none => none
    | some w => plane.send (w.queueForClass c) packet true

/-- The two attempts of `dispatch_now` and `redispatch`; a packet that neither of them
places is dropped. -/
def place (packet : π) : Plane π :=
  match plane.enqueueSelectedWorker workers slot c packet with
  | some plane => plane
  | none => (plane.replaceOldestInSelectedQueue workers c packet).getD plane

end Plane

section Dispatch

variable (bytes : π → Packet)

/-- `dispatch_now`; `spare` is what `udp_spare` makes of the packet. -/
def dispatchNow (s : FastPathScheduler WorkerChannels) (table : List WorkerChannels)
    (plane : Plane π) (packet : π) (spare : Option π) :
    FastPathScheduler WorkerChannels × Plane π :=
  match s.begin table (bytes packet) with
  | (none, s) => (s, plane)
  | (some ticket, s) =>
    let n := s.workers.length
    let placed := plane.place s.workers ticket.startSlot ticket.class packet
    match spare with
    | none => (s, placed)
    | some spare =>
      if 1 < n then
        (s, (placed.enqueueSelectedWorker s.workers ((ticket.startSlot + n / 2) % n) ticket.class
          spare).getD placed)
      else (s, placed)

def redispatch (table : List WorkerChannels) (plane : Plane π) (packet : π) : Plane π :=
  if table = [] then plane else plane.place table 0 (packetClass (bytes packet)) packet

end Dispatch

/-! ### What a dispatch should do -/

/-- This queue of the class belongs to a registered healthy worker, and it is open and
active. -/
def Plane.Serves (plane : Plane π) (table : List WorkerChannels) (c : PacketClass) (name : ℕ) :
    Prop :=
  (∃ w ∈ table, plane.isHealthy w ∧ w.queueForClass c = name) ∧ (plane.queues name).accepts

/-- The packet is in this queue once and in no other, in front of a spare at most, and
the oldest packet of this queue is the only one that may be gone. -/
structure DeliveredTo (plane final : Plane π) (packet : π) (name : ℕ) : Prop where
  here : ∃ spares : List (QueuedPacket π), (∀ q ∈ spares, q.packet ≠ packet) ∧
    (∀ q ∈ (plane.queues name).queue, q.packet ≠ packet) ∧
    (final.queues name).queue = ((plane.queues name).forcePush packet).queue ++ spares
  elsewhere : ∀ name' ≠ name, (plane.queues name').queue <+: (final.queues name').queue ∧
    ∀ q ∈ (final.queues name').queue, q.packet ≠ packet

/-- The packet is kept if a registered worker could take it. -/
def Keeps (table : List WorkerChannels) (c : PacketClass) (plane final : Plane π) (packet : π) :
    Prop :=
  (∃ name, plane.Serves table c name) →
    ∃ name, plane.Serves table c name ∧ DeliveredTo plane final packet name

/-- A packet that is dispatched is in no queue, and its spare is another buffer. -/
def Owned (plane : Plane π) (packet : π) (spare : Option π) : Prop :=
  (∀ name, ∀ q ∈ (plane.queues name).queue, q.packet ≠ packet) ∧ ∀ copy ∈ spare, copy ≠ packet

namespace Plane

/-- The order in which the workers of the window are asked. -/
def asked (plane : Plane π) (workers : List WorkerChannels) (slot : ℕ) (c : PacketClass) :
    List WorkerChannels :=
  (plane.window workers slot).filter (fun w =>
      plane.isHealthy w && !(plane.queueOf c w).isCongested) ++
    (plane.window workers slot).filter plane.isHealthy

/-- The worker is the first one asked that has room, or nobody has room and it is the
first of those with the shortest queue, which is open and active. -/
def Takes (plane : Plane π) (workers : List WorkerChannels) (slot : ℕ) (c : PacketClass)
    (w : WorkerChannels) : Prop :=
  (∃ before after, plane.asked workers slot c = before ++ w :: after ∧
    (plane.queueOf c w).hasRoom ∧ ∀ v ∈ before, ¬ (plane.queueOf c v).hasRoom) ∨
  ((∀ v ∈ plane.window workers slot, plane.isHealthy v → ¬ (plane.queueOf c v).hasRoom) ∧
    plane.shortest workers c = some w ∧ (plane.queueOf c w).accepts)

/-! ### Where the packet goes -/

variable {plane mid : Plane π} {workers : List WorkerChannels} {slot : ℕ} {c : PacketClass}
  {packet : π} {w : WorkerChannels}

theorem trySend_eq (plane : Plane π) (name : ℕ) (packet : π) :
    plane.send name packet false =
      if (plane.queues name).hasRoom then some (plane.put name packet) else none := by
  rw [send, Queue.trySend_eq]
  split_ifs
  · rfl
  · rfl

theorem forceSend_eq (plane : Plane π) (name : ℕ) (packet : π) :
    plane.send name packet true =
      if (plane.queues name).accepts then some (plane.put name packet) else none := by
  rw [send, Queue.forceSend_eq]
  split_ifs
  · rfl
  · rfl

/-- A pass gives the packet to the first worker that has room, among those it asks. -/
theorem offer_eq (plane : Plane π) (c : PacketClass) (preferClear : Bool) (packet : π)
    (workers : List WorkerChannels) :
    plane.offer c preferClear packet workers =
      ((workers.filter fun w =>
        plane.isHealthy w && !(preferClear && (plane.queueOf c w).isCongested)).find?
          fun w => (plane.queueOf c w).hasRoom).map
            fun w => plane.put (w.queueForClass c) packet := by
  induction workers with
  | nil => rfl
  | cons w rest ih =>
    rw [offer]
    rcases hhealthy : plane.isHealthy w with _ | _
    · rw [List.filter_cons_of_neg (by rw [hhealthy, Bool.false_and]; exact Bool.false_ne_true)]
      exact ih
    rcases hskip : preferClear && (plane.queueOf c w).isCongested with _ | _
    · rw [List.filter_cons_of_pos (by rw [hhealthy, hskip]; rfl), trySend_eq]
      rcases hroom : (plane.queueOf c w).hasRoom with _ | _
      · rw [List.find?_cons_of_neg (by rw [hroom]; exact Bool.false_ne_true)]
        have hfull : (plane.queues (w.queueForClass c)).hasRoom = false := hroom
        simp only [hfull, Bool.not_true, Bool.false_eq_true, if_false]
        exact ih
      · rw [List.find?_cons_of_pos (p := fun w => (plane.queueOf c w).hasRoom) hroom]
        have hfull : (plane.queues (w.queueForClass c)).hasRoom = true := hroom
        simp only [hfull, Bool.not_true, Bool.false_eq_true, if_false, if_true, Option.map_some]
    · rw [List.filter_cons_of_neg (by rw [hhealthy, hskip]; exact Bool.false_ne_true)]
      exact ih

theorem enqueueSelectedWorker_eq (plane : Plane π) (workers : List WorkerChannels) (slot : ℕ)
    (c : PacketClass) (packet : π) :
    plane.enqueueSelectedWorker workers slot c packet =
      ((plane.asked workers slot c).find? fun w => (plane.queueOf c w).hasRoom).map
        fun w => plane.put (w.queueForClass c) packet := by
  rw [enqueueSelectedWorker]
  split_ifs with hnone
  · have hwindow : plane.window workers slot = [] := by
      rw [List.length_eq_zero_iff.mp hnone]
      rfl
    rw [asked, hwindow]
    rfl
  · rw [offer_eq, offer_eq, asked, List.find?_append]
    simp only [Bool.true_and, Bool.false_and, Bool.not_false, Bool.and_true]
    rcases (List.filter (fun w => plane.isHealthy w && !(plane.queueOf c w).isCongested)
      (plane.window workers slot)).find? fun w => (plane.queueOf c w).hasRoom with _ | w
    · rw [Option.map_none, Option.none_or]
    · rfl

theorem replaceOldest_eq (plane : Plane π) (workers : List WorkerChannels) (c : PacketClass)
    (packet : π) :
    plane.replaceOldestInSelectedQueue workers c packet =
      match plane.shortest workers c with
      | none => none
      | some w =>
        if (plane.queueOf c w).accepts then some (plane.put (w.queueForClass c) packet)
        else none := by
  rw [replaceOldestInSelectedQueue]
  split_ifs with hnone
  · rw [List.length_eq_zero_iff.mp hnone]
    rfl
  · rcases plane.shortest workers c with _ | w
    · rfl
    · exact forceSend_eq plane _ packet

theorem mem_asked (h : w ∈ plane.asked workers slot c) :
    w ∈ plane.window workers slot ∧ plane.isHealthy w := by
  rcases List.mem_append.mp h with h | h
  · obtain ⟨hmem, hw⟩ := List.mem_filter.mp h
    rw [Bool.and_eq_true] at hw
    exact ⟨hmem, hw.1⟩
  · exact List.mem_filter.mp h

/-- Nobody asked has room exactly when no healthy worker of the window has. -/
theorem asked_find?_eq_none :
    ((plane.asked workers slot c).find? fun w => (plane.queueOf c w).hasRoom) = none ↔
      ∀ v ∈ plane.window workers slot, plane.isHealthy v → ¬ (plane.queueOf c v).hasRoom := by
  rw [List.find?_eq_none]
  constructor
  · intro h v hv hhealthy
    exact h v (List.mem_append_right _ (List.mem_filter.mpr ⟨hv, hhealthy⟩))
  · intro h v hv
    exact h v (mem_asked hv).1 (mem_asked hv).2

theorem place_of_takes (h : plane.Takes workers slot c w) (packet : π) :
    plane.place workers slot c packet = plane.put (w.queueForClass c) packet := by
  rcases h with ⟨before, after, hasked, hroom, hbefore⟩ | ⟨hnone, hshortest, haccepts⟩
  · -- it is the first of those asked that has room
    have hfind : ((plane.asked workers slot c).find? fun w => (plane.queueOf c w).hasRoom) =
        some w := by
      refine List.find?_eq_some_iff_append.mpr ⟨hroom, before, after, hasked, fun v hv => ?_⟩
      rw [Bool.not_eq_true']
      exact Bool.eq_false_of_not_eq_true (hbefore v hv)
    rw [place, enqueueSelectedWorker_eq, hfind]
    rfl
  · -- nobody asked has room, and the shortest queue makes some
    rw [place, enqueueSelectedWorker_eq, asked_find?_eq_none.mpr hnone, replaceOldest_eq, hshortest]
    simp only [haccepts, if_true]
    rfl

theorem place_of_not_takes (h : ∀ w, ¬ plane.Takes workers slot c w) (packet : π) :
    plane.place workers slot c packet = plane := by
  rcases hfind : (plane.asked workers slot c).find? fun w => (plane.queueOf c w).hasRoom with _ | w
  · rw [place, enqueueSelectedWorker_eq, hfind, replaceOldest_eq]
    rcases hshortest : plane.shortest workers c with _ | w
    · rfl
    · -- the shortest queue is asked although it may be closed
      have hrefused : ¬ (plane.queueOf c w).accepts :=
        fun haccepts => h w (.inr ⟨asked_find?_eq_none.mp hfind, hshortest, haccepts⟩)
      simp only [if_neg hrefused]
      rfl
  · obtain ⟨hroom, before, after, hasked, hbefore⟩ := List.find?_eq_some_iff_append.mp hfind
    refine absurd (.inl ⟨before, after, hasked, hroom, fun v hv hv' => ?_⟩) (h w)
    have hno := hbefore v hv
    rw [hv'] at hno
    exact Bool.false_ne_true hno

theorem takes_iff :
    (∃ w, plane.Takes workers slot c w) ↔
      (∃ w ∈ plane.window workers slot, plane.isHealthy w ∧ (plane.queueOf c w).hasRoom) ∨
        ∃ w, plane.shortest workers c = some w ∧ (plane.queueOf c w).accepts := by
  constructor
  · rintro ⟨w, ⟨before, after, hasked, hroom, _⟩ | ⟨_, hshortest, haccepts⟩⟩
    · have hmem : w ∈ plane.asked workers slot c := by
        rw [hasked]
        exact List.mem_append_right before List.mem_cons_self
      exact .inl ⟨w, (mem_asked hmem).1, (mem_asked hmem).2, hroom⟩
    · exact .inr ⟨w, hshortest, haccepts⟩
  · intro h
    rcases hfind : (plane.asked workers slot c).find? fun w => (plane.queueOf c w).hasRoom with
      _ | w
    · have hnone := asked_find?_eq_none.mp hfind
      rcases h with ⟨w, hmem, hhealthy, hroom⟩ | ⟨w, hshortest, haccepts⟩
      · exact absurd hroom (hnone w hmem hhealthy)
      · exact ⟨w, .inr ⟨hnone, hshortest, haccepts⟩⟩
    · obtain ⟨hroom, before, after, hasked, hbefore⟩ := List.find?_eq_some_iff_append.mp hfind
      refine ⟨w, .inl ⟨before, after, hasked, hroom, fun v hv hv' => ?_⟩⟩
      have hno := hbefore v hv
      rw [hv'] at hno
      exact Bool.false_ne_true hno

theorem mem_of_mem_window (h : w ∈ plane.window workers slot) : w ∈ workers := by
  obtain ⟨offset, _, hget⟩ := List.mem_filterMap.mp h
  exact List.mem_of_getElem? hget

/-- The worker that takes the packet is a healthy one of the table, and can. -/
theorem Takes.serves (h : plane.Takes workers slot c w) :
    plane.Serves workers c (w.queueForClass c) := by
  rcases h with ⟨before, after, hasked, hroom, _⟩ | ⟨_, hshortest, haccepts⟩
  · have hmem : w ∈ plane.asked workers slot c := by
      rw [hasked]
      exact List.mem_append_right before List.mem_cons_self
    obtain ⟨hwindow, hhealthy⟩ := mem_asked hmem
    rw [Queue.hasRoom, Bool.and_eq_true] at hroom
    exact ⟨⟨w, mem_of_mem_window hwindow, hhealthy, rfl⟩, hroom.1⟩
  · have hmem : w ∈ workers.filter plane.isHealthy := List.argmin_mem hshortest
    obtain ⟨hw, hhealthy⟩ := List.mem_filter.mp hmem
    exact ⟨⟨w, hw, hhealthy, rfl⟩, haccepts⟩

end Plane

open Plane

/-! ### Delivered and dropped packets -/

section Delivered

variable {plane mid final : Plane π} {packet : π} {name : ℕ}

theorem Plane.put_queues_self (plane : Plane π) (name : ℕ) (packet : π) :
    (plane.put name packet).queues name = (plane.queues name).forcePush packet :=
  Function.update_self _ _ _

theorem Plane.put_queues_of_ne {name name' : ℕ} (h : name' ≠ name) (packet : π) :
    (plane.put name packet).queues name' = plane.queues name' :=
  Function.update_of_ne h _ _

theorem forcePush_of_hasRoom {q : Queue π} (h : q.hasRoom) (packet : π) :
    (q.forcePush packet).queue = q.queue ++ [⟨packet, q.epoch⟩] := by
  rw [Queue.hasRoom, Bool.and_eq_true, Bool.not_eq_true'] at h
  rw [Queue.forcePush, h.2, if_neg Bool.false_ne_true]

theorem put_delivered {spare : Option π} (h : Owned plane packet spare) (name : ℕ) :
    DeliveredTo plane (plane.put name packet) packet name := by
  constructor
  · exact ⟨[], fun q hq => absurd hq List.not_mem_nil, h.1 name, by
      rw [put_queues_self, List.append_nil]⟩
  · intro name' hne
    rw [put_queues_of_ne hne]
    exact ⟨List.prefix_rfl, h.1 name'⟩

/-- A spare that finds room leaves the packet where it is. -/
theorem DeliveredTo.spare {name' : ℕ} {copy : π} (h : DeliveredTo plane mid packet name)
    (hroom : (mid.queues name').hasRoom) (hcopy : copy ≠ packet) :
    DeliveredTo plane (mid.put name' copy) packet name := by
  obtain ⟨spares, hspares, hfresh, hhere⟩ := h.here
  constructor
  · by_cases hname : name = name'
    · -- the spare lies behind the packet
      subst hname
      refine ⟨spares ++ [⟨copy, (mid.queues name).epoch⟩], fun q hq => ?_, hfresh, ?_⟩
      · rcases List.mem_append.mp hq with hq | hq
        · exact hspares q hq
        · rw [List.mem_singleton.mp hq]
          exact hcopy
      · rw [put_queues_self, forcePush_of_hasRoom hroom, hhere, List.append_assoc]
    · exact ⟨spares, hspares, hfresh, by rw [put_queues_of_ne hname, hhere]⟩
  · intro other hother
    obtain ⟨hpre, hnot⟩ := h.elsewhere other hother
    by_cases hname : other = name'
    · subst hname
      rw [put_queues_self, forcePush_of_hasRoom hroom]
      refine ⟨hpre.trans (List.prefix_append _ _), fun q hq => ?_⟩
      rcases List.mem_append.mp hq with hq | hq
      · exact hnot q hq
      · rw [List.mem_singleton.mp hq]
        exact hcopy
    · rw [put_queues_of_ne hname]
      exact ⟨hpre, hnot⟩

theorem DeliveredTo.mem (h : DeliveredTo plane final packet name) :
    ∃ q ∈ (final.queues name).queue, q.packet = packet := by
  obtain ⟨spares, _, _, hhere⟩ := h.here
  refine ⟨⟨packet, (plane.queues name).epoch⟩, ?_, rfl⟩
  rw [hhere, Queue.forcePush]
  exact List.mem_append_left _ (List.mem_append_right _ (List.mem_singleton_self _))

/-- A packet is delivered to one queue only. -/
theorem DeliveredTo.unique {name' : ℕ}
    (h : DeliveredTo plane final packet name) (h' : DeliveredTo plane final packet name') :
    name' = name := by
  by_contra hne
  obtain ⟨q, hq, heq⟩ := h'.mem
  exact (h.elsewhere name' hne).2 q hq heq

/-- The spare is enqueued where there is room, or nowhere. -/
theorem enqueueSelectedWorker_spare (mid : Plane π) (workers : List WorkerChannels) (slot : ℕ)
    (c : PacketClass) (copy : π) :
    (mid.enqueueSelectedWorker workers slot c copy).getD mid = mid ∨
      ∃ name, (mid.queues name).hasRoom ∧
        (mid.enqueueSelectedWorker workers slot c copy).getD mid = mid.put name copy := by
  rw [enqueueSelectedWorker_eq]
  rcases hfind : (mid.asked workers slot c).find? fun w => (mid.queueOf c w).hasRoom with _ | w
  · exact .inl rfl
  · have hroom : (mid.queueOf c w).hasRoom := by
      have hsome := List.find?_some hfind
      exact hsome
    exact .inr ⟨w.queueForClass c, hroom, rfl⟩

/-- No queue has the packet. -/
def Dropped (final : Plane π) (packet : π) : Prop :=
  ∀ name, ∀ q ∈ (final.queues name).queue, q.packet ≠ packet

theorem Dropped.not_delivered (h : Dropped final packet) : ¬ DeliveredTo plane final packet name := by
  intro hdelivered
  obtain ⟨q, hq, heq⟩ := hdelivered.mem
  exact h name q hq heq

/-- A spare alone does not bring the packet back. -/
theorem Dropped.spare {copy : π} (h : Dropped mid packet) (hroom : (mid.queues name).hasRoom)
    (hcopy : copy ≠ packet) : Dropped (mid.put name copy) packet := by
  intro name' q hq
  by_cases hname : name' = name
  · subst hname
    rw [put_queues_self, forcePush_of_hasRoom hroom] at hq
    rcases List.mem_append.mp hq with hq | hq
    · exact h name' q hq
    · rw [List.mem_singleton.mp hq]
      exact hcopy
  · rw [put_queues_of_ne hname] at hq
    exact h name' q hq

/-! ### When a packet is kept -/

variable {table workers : List WorkerChannels} {slot : ℕ} {c : PacketClass} {w : WorkerChannels}

/-- What a dispatch leaves: the packet where a worker takes it, and nothing of it when
no worker does. -/
structure Placed (plane final : Plane π) (workers : List WorkerChannels) (slot : ℕ)
    (c : PacketClass) (packet : π) : Prop where
  taken : ∀ w, plane.Takes workers slot c w →
    DeliveredTo plane final packet (w.queueForClass c)
  dropped : (∀ w, ¬ plane.Takes workers slot c w) → Dropped final packet

theorem placed_place {spare : Option π} (h : Owned plane packet spare)
    (workers : List WorkerChannels) (slot : ℕ) (c : PacketClass) :
    Placed plane (plane.place workers slot c packet) workers slot c packet := by
  constructor
  · intro w hw
    rw [place_of_takes hw]
    exact put_delivered h _
  · intro hnone
    rw [place_of_not_takes hnone]
    exact h.1

theorem Placed.spare {copy : π} (h : Placed plane mid workers slot c packet) (slot' : ℕ)
    (hcopy : copy ≠ packet) :
    Placed plane ((mid.enqueueSelectedWorker workers slot' c copy).getD mid) workers slot c
      packet := by
  rcases enqueueSelectedWorker_spare mid workers slot' c copy with heq | ⟨name, hroom, heq⟩
  · rw [heq]
    exact h
  · rw [heq]
    exact ⟨fun w hw => (h.taken w hw).spare hroom hcopy,
      fun hnone => (h.dropped hnone).spare hroom hcopy⟩

/-- A placed packet is kept exactly when the worker that takes it is registered. -/
theorem Placed.keeps_iff (h : Placed plane final workers slot c packet)
    (table : List WorkerChannels) :
    Keeps table c plane final packet ↔
      ((∃ name, plane.Serves table c name) →
        ∃ w, plane.Takes workers slot c w ∧ plane.Serves table c (w.queueForClass c)) := by
  refine forall_congr' fun _ => ⟨?_, ?_⟩
  · rintro ⟨name, hserves, hdelivered⟩
    by_cases htaken : ∃ w, plane.Takes workers slot c w
    · obtain ⟨w, hw⟩ := htaken
      refine ⟨w, hw, ?_⟩
      rw [hdelivered.unique (h.taken w hw)]
      exact hserves
    · -- nobody takes it: then it is in no queue at all
      have hdropped := h.dropped (not_exists.mp htaken)
      exact absurd hdelivered hdropped.not_delivered
  · rintro ⟨w, hw, hserves⟩
    exact ⟨w.queueForClass c, hserves, h.taken w hw⟩

variable (bytes : π → Packet)

theorem dispatchNow_placed {s : FastPathScheduler WorkerChannels} {spare : Option π}
    (hs : s.Counted) (table : List WorkerChannels) (h : Owned plane packet spare) :
    let c := packetClass (bytes packet)
    let t := s.reload table c
    Placed plane (dispatchNow bytes s table plane packet spare).2 t.workers
      (t.cursors c).currentWorker c packet := by
  intro c t
  have hcounted : t.Counted := hs.reload table c
  have hbegin : s.begin table (bytes packet) = t.beginForClass t.workerCount c := rfl
  have hplaced := placed_place h t.workers (t.cursors c).currentWorker c
  rw [dispatchNow, hbegin]
  by_cases hnone : t.workerCount = 0
  · -- no worker at all
    have hempty : t.workers = [] := List.eq_nil_of_length_eq_zero (hcounted.symm.trans hnone)
    have hstays : plane.place t.workers (t.cursors c).currentWorker c packet = plane := by
      rw [hempty]
      rfl
    rw [FastPathScheduler.beginForClass_none hnone]
    rw [hstays] at hplaced
    exact hplaced
  · rw [FastPathScheduler.beginForClass_some hnone]
    rcases spare with _ | copy
    · exact hplaced
    · show Placed plane (ite _ _ _ : FastPathScheduler WorkerChannels × Plane π).2 _ _ _ _
      split_ifs
      · exact hplaced.spare _ (h.2 copy rfl)
      · exact hplaced

theorem redispatch_placed (table : List WorkerChannels) (h : Owned plane packet none) :
    Placed plane (redispatch bytes table plane packet) table 0 (packetClass (bytes packet))
      packet := by
  have hplaced := placed_place h table 0 (packetClass (bytes packet))
  rw [redispatch]
  split_ifs with hempty
  · rw [hempty] at hplaced ⊢
    exact hplaced
  · exact hplaced

/-- For the registered table itself, any worker that takes the packet will do. -/
theorem keeps_iff_takes (h : Placed plane final table slot c packet) :
    Keeps table c plane final packet ↔
      ((∃ name, plane.Serves table c name) →
        (∃ w ∈ plane.window table slot, plane.isHealthy w ∧ (plane.queueOf c w).hasRoom) ∨
          ∃ w, plane.shortest table c = some w ∧ (plane.queueOf c w).accepts) := by
  rw [h.keeps_iff]
  refine forall_congr' fun _ => ?_
  rw [← takes_iff]
  constructor
  · rintro ⟨w, hw, _⟩
    exact ⟨w, hw⟩
  · rintro ⟨w, hw⟩
    exact ⟨w, hw, hw.serves⟩

/-- **When a dispatched packet is kept.**  If a registered healthy worker has an open and
active queue of its class, `dispatch_now` keeps the packet exactly when the worker that
takes it, in the table in use, is registered; `redispatch` keeps it exactly when a healthy
worker of the window has room, or the first of the healthy workers with the shortest
queue has it open and active. -/
theorem dispatch_keeps_iff (table : List WorkerChannels) (plane : Plane π) (packet : π) :
    (∀ (s : FastPathScheduler WorkerChannels) (spare : Option π), s.Counted →
      Owned plane packet spare →
      let c := packetClass (bytes packet)
      let t := s.reload table c
      (Keeps table c plane (dispatchNow bytes s table plane packet spare).2 packet ↔
        ((∃ name, plane.Serves table c name) →
          ∃ w, plane.Takes t.workers (t.cursors c).currentWorker c w ∧
            plane.Serves table c (w.queueForClass c)))) ∧
    (Owned plane packet none →
      let c := packetClass (bytes packet)
      (Keeps table c plane (redispatch bytes table plane packet) packet ↔
        ((∃ name, plane.Serves table c name) →
          (∃ w ∈ plane.window table 0, plane.isHealthy w ∧ (plane.queueOf c w).hasRoom) ∨
            ∃ w, plane.shortest table c = some w ∧ (plane.queueOf c w).accepts))) := by
  constructor
  · intro s spare hs howned
    exact (dispatchNow_placed bytes hs table howned).keeps_iff table
  · intro howned
    exact keeps_iff_takes (redispatch_placed bytes table howned)

end Delivered

/-! ### A closed queue that is shortest -/

def firstWorker : WorkerChannels := { latency := 0, priority := 1, bulk := 2, healthy := 0 }

def secondWorker : WorkerChannels := { latency := 3, priority := 4, bulk := 5, healthy := 1 }

/-- Both workers are healthy and the second one has a single place, which is taken. -/
def fullSecond (firstOpen : Bool) : Plane Packet where
  queues name :=
    if name = 0 then { capacity := 4, receiverOpen := firstOpen }
    else if name = 3 then { capacity := 1, queue := [⟨[2], 0⟩] }
    else { capacity := 4 }
  healthy _ := true

theorem fullSecond_owned (firstOpen : Bool) : Owned (fullSecond firstOpen) [1] none := by
  refine ⟨fun name q hq => ?_, fun _ h => nomatch h⟩
  by_cases h3 : name = 3
  · subst h3
    rw [List.mem_singleton.mp hq]
    decide
  · have hempty : ((fullSecond firstOpen).queues name).queue = [] := by
      simp only [fullSecond, if_neg h3]
      split_ifs <;> rfl
    rw [hempty] at hq
    exact absurd hq List.not_mem_nil

theorem open_queue_keeps :
    Keeps [firstWorker, secondWorker] .small (fullSecond true)
        (dispatchNow id .new [firstWorker, secondWorker] (fullSecond true) [1] none).2 [1] ∧
      Keeps [firstWorker, secondWorker] .small (fullSecond true)
        (redispatch id [firstWorker, secondWorker] (fullSecond true) [1]) [1] := by
  have h := dispatch_keeps_iff id [firstWorker, secondWorker] (fullSecond true) [1]
  constructor
  · refine (h.1 .new none rfl (fullSecond_owned true)).mpr fun _ => ⟨firstWorker, ?_, ?_⟩
    · exact .inl ⟨[], _, rfl, rfl, fun _ h => absurd h List.not_mem_nil⟩
    · exact ⟨⟨firstWorker, List.mem_cons_self, rfl, rfl⟩, rfl⟩
  · exact (h.2 (fullSecond_owned true)).mpr fun _ =>
      .inl ⟨firstWorker, List.mem_cons_self, rfl, rfl⟩

/-- The first worker's receiver is gone, and its empty queue is the shortest: the packet is
dropped, although the second worker is healthy and its queue open and active. -/
theorem closed_shortest_queue_drops :
    ¬ ((∀ (s : FastPathScheduler WorkerChannels) (table : List WorkerChannels)
        (plane : Plane Packet) (packet : Packet) (spare : Option Packet), s.Counted →
        Owned plane packet spare → Keeps table (packetClass packet) plane
          (dispatchNow id s table plane packet spare).2 packet) ∨
      ∀ (table : List WorkerChannels) (plane : Plane Packet) (packet : Packet),
        Owned plane packet none → Keeps table (packetClass packet) plane
          (redispatch id table plane packet) packet) := by
  have howned := fullSecond_owned false
  have hserves : ∃ name, (fullSecond false).Serves [firstWorker, secondWorker] .small name :=
    ⟨3, ⟨secondWorker, List.mem_cons_of_mem _ List.mem_cons_self, rfl, rfl⟩, rfl⟩
  have hdropped : Dropped (fullSecond false) [1] := howned.1
  rintro (hclaim | hclaim)
  · obtain ⟨name, _, hdelivered⟩ :=
      hclaim .new [firstWorker, secondWorker] (fullSecond false) [1] none rfl howned hserves
    exact hdropped.not_delivered hdelivered
  · obtain ⟨name, _, hdelivered⟩ :=
      hclaim [firstWorker, secondWorker] (fullSecond false) [1] howned hserves
    exact hdropped.not_delivered hdelivered

end Csqtt.Dispatcher
