/-
The uplink bridge between the device and the dispatcher.

Any number of threads inject packets.  A packet that is to be kept under pressure goes
into the queue `latency`, any other into `queue`; `read_bridge` takes what `latency` has
first, numbers the packets of each flow and waits when it has found both queues empty.
The steps interleave freely.  The bridge is up and is not cancelled, and a pool without
a buffer is part of the event.

`inject_packet` notifies only if the two lengths, read one after the other, add up to
1.  A push that comes before another injector has read them makes both add up to 2, and
the reader is not told (`two_injections_lost`).

* `no_lost_uplink_wakeup` — the reader is never left parked in front of a packet while every
  `inject_packet` that pushes behind an unannounced one is `Covered`;
* `owed_iff_covered` — exactly then a reader that waits before a packet always has an
  injector that is going to notify.
-/
import Csqtt.StripedScheduler
import Csqtt.TransitionRun
import Csqtt.UplinkRoom
import Mathlib.Data.Fintype.Basic
import Mathlib.Logic.Function.Basic

open Transition

namespace Csqtt.UplinkBridge

open FlowFrame (FlowSequencer FrameHeader)
open StripedScheduler UplinkRoom

variable {ι : Type*}

/-- `UPLINK_CAPACITY`. -/
def uplinkCapacity : ℕ := 1024

/-- `UPLINK_LATENCY_CAPACITY`. -/
def uplinkLatencyCapacity : ℕ := 256

/-- A packet in a queue.  How many had been accepted before is not kept by the source. -/
structure Queued where
  index : ℕ
  packet : PacketBuf
  deriving DecidableEq

/-- A number that has been given to a packet. -/
structure Numbered where
  header : FrameHeader
  index : ℕ
  deriving DecidableEq

/-- What a call has left to do after the push that it is about to make. -/
inductive Call where
  | one
  | burst (rest : List PacketBuf) (queued failed : ℕ)
  deriving DecidableEq

/-- What an injector does next. -/
inductive Injector where
  /-- In no call; the last one has returned `code`. -/
  | idle (code : ℤ)
  | pushing (packet : PacketBuf) (call : Call)
  /-- `latency` was full; to drop its oldest packet. -/
  | evicting (packet : PacketBuf) (call : Call)
  /-- To push a second time. -/
  | repushing (packet : PacketBuf) (call : Call)
  /-- `inject_packet` has pushed; to read the length of `latency`. -/
  | measuring
  /-- To read the length of `queue`. -/
  | measured (latencyLen : ℕ)
  | notifying
  deriving DecidableEq

/-- What `read_bridge` does next. -/
inductive Reader where
  /-- `latency.pop()`. -/
  | popLatency
  /-- `queue.pop()`, after `latency` was empty. -/
  | popQueue
  /-- To poll `notified`. -/
  | waiting
  | parked
  deriving DecidableEq

structure Shared (ι : Type*) where
  latency : List Queued
  queue : List Queued
  /-- How many packets the queues have accepted. -/
  accepted : ℕ
  /-- The permit of the `Notify`. -/
  permit : Bool
  reader : Reader
  sequences : FlowSequencer
  /-- The numbers that the sequencer has given, in this order. -/
  numbered : List Numbered
  injectors : ι → Injector

inductive Event (ι : Type*) where
  /-- `inject_packet`, with whether the pool has a buffer. -/
  | inject (i : ι) (data : Packet) (acquired : Bool)
  /-- `inject_packets`. -/
  | injectBurst (i : ι) (packets : List (Packet × Bool))
  | push (i : ι)
  | evict (i : ι)
  | readLatencyLen (i : ι)
  | readQueueLen (i : ι)
  | notifyOne (i : ι)
  /-- The reader's next step. -/
  | read

/-! ### A call -/

/-- The next packet of a burst, or the end of the call. -/
def burstNext : List PacketBuf → ℕ → ℕ → Injector
  | packet :: rest, queued, failed => .pushing packet (.burst rest queued failed)
  | [], queued, failed =>
    if 0 < queued then .notifying else .idle (if 0 < failed then -2 else 0)

/-- After `enqueue_uplink`. -/
def Call.finish : Call → Bool → Injector
  | .one, true => .measuring
  | .one, false => .idle (-2)
  | .burst rest queued failed, true => burstNext rest (queued + 1) failed
  | .burst rest queued failed, false => burstNext rest queued (failed + 1)

/-- `inject_packet` as far as the push. -/
def injectPacket (data : Packet) (acquired : Bool) : Injector :=
  match injectCopy data with
  | none => .idle (-3)
  | some packet => if acquired then .pushing packet .one else .idle (-2)

/-- The copies that a burst makes; it skips an empty packet. -/
def burstCopies (packets : List (Packet × Bool)) : List PacketBuf :=
  packets.filterMap fun (data, acquired) => if acquired then injectCopy data else none

/-- `inject_packets` as far as the first push. -/
def injectPackets (packets : List (Packet × Bool)) : Injector :=
  burstNext (burstCopies packets) 0
    ((packets.filter fun (data, _) => data ≠ []).length - (burstCopies packets).length)

namespace Shared

def start (ι : Type*) (senderId : BitVec 64) : Shared ι where
  latency := []
  queue := []
  accepted := 0
  permit := false
  reader := .popLatency
  sequences := .withSenderId senderId
  numbered := []
  injectors _ := .idle 0

/-- `notify_one`: wake the reader, or leave the permit. -/
def notify (s : Shared ι) : Shared ι :=
  if s.reader = .parked then { s with reader := .popLatency } else { s with permit := true }

/-- `frame_outbound_packet`; what it returns goes to the dispatcher. -/
def frame (s : Shared ι) (queued : Queued) : Shared ι :=
  match s.sequences.next queued.packet.bytes with
  | (none, sequences) => { s with sequences }
  | (some header, sequences) =>
    { s with sequences, numbered := s.numbered ++ [⟨header, queued.index⟩] }

/-- The step of `read_bridge`; a parked reader has none. -/
def read (s : Shared ι) : Option (Shared ι) :=
  match s.reader with
  | .popLatency =>
    match s.latency with
    | [] => some { s with reader := .popQueue }
    | queued :: latency => some ({ s with latency }.frame queued)
  | .popQueue =>
    match s.queue with
    | [] => some { s with reader := .waiting }
    | queued :: queue => some ({ s with queue, reader := .popLatency }.frame queued)
  | .waiting =>
    if s.permit then some { s with permit := false, reader := .popLatency }
    else some { s with reader := .parked }
  | .parked => none

/-- The queue has room for the packet. -/
def HasRoom (s : Shared ι) (packet : PacketBuf) : Prop :=
  if keepUnderPressure packet.bytes then s.latency.length < uplinkLatencyCapacity
  else s.queue.length < uplinkCapacity

instance (s : Shared ι) (packet : PacketBuf) : Decidable (s.HasRoom packet) :=
  inferInstanceAs (Decidable (ite _ _ _))

/-- A push that finds room. -/
def accept (s : Shared ι) (packet : PacketBuf) : Shared ι :=
  if keepUnderPressure packet.bytes then
    { s with latency := s.latency ++ [⟨s.accepted, packet⟩], accepted := s.accepted + 1 }
  else { s with queue := s.queue ++ [⟨s.accepted, packet⟩], accepted := s.accepted + 1 }

variable [DecidableEq ι]

def setInjector (s : Shared ι) (i : ι) (injector : Injector) : Shared ι :=
  { s with injectors := Function.update s.injectors i injector }

/-- The first or the second push of `enqueue_uplink`. -/
def push (s : Shared ι) (i : ι) : Option (Shared ι) :=
  match s.injectors i with
  | .pushing packet call =>
    if s.HasRoom packet then some ((s.accept packet).setInjector i (call.finish true))
    else if keepUnderPressure packet.bytes then some (s.setInjector i (.evicting packet call))
    else some (s.setInjector i (call.finish false))
  | .repushing packet call =>
    if s.HasRoom packet then some ((s.accept packet).setInjector i (call.finish true))
    else some (s.setInjector i (call.finish false))
  | _ => none

def step (s : Shared ι) : Event ι → Option (Shared ι)
  | .inject i data acquired =>
    match s.injectors i with
    | .idle _ => some (s.setInjector i (injectPacket data acquired))
    | _ => none
  | .injectBurst i packets =>
    match s.injectors i with
    | .idle _ => some (s.setInjector i (injectPackets packets))
    | _ => none
  | .push i => s.push i
  | .evict i =>
    match s.injectors i with
    | .evicting packet call =>
      some ({ s with latency := s.latency.tail }.setInjector i (.repushing packet call))
    | _ => none
  | .readLatencyLen i =>
    match s.injectors i with
    | .measuring => some (s.setInjector i (.measured s.latency.length))
    | _ => none
  | .readQueueLen i =>
    match s.injectors i with
    | .measured latencyLen =>
      some (s.setInjector i (if latencyLen + s.queue.length = 1 then .notifying else .idle 0))
    | _ => none
  | .notifyOne i =>
    match s.injectors i with
    | .notifying => some (s.setInjector i (.idle 0)).notify
    | _ => none
  | .read => s.read

end Shared

open Shared

/-! ### The invariant -/

/-- The call will notify, whatever the queues hold. -/
def Call.announces : Call → Bool
  | .one => false
  | .burst _ queued _ => 0 < queued

/-- The injector will notify if the lengths of the queues stay these. -/
def Injector.Informs (latencyLen queueLen : ℕ) : Injector → Prop
  | .idle _ => False
  | .pushing _ call | .evicting _ call | .repushing _ call => call.announces
  | .measuring => latencyLen + queueLen = 1
  | .measured n => n + queueLen = 1
  | .notifying => True

/-- Some injector will notify at these lengths. -/
def Informed (s : Shared ι) (latencyLen queueLen : ℕ) : Prop :=
  ∃ i, (s.injectors i).Informs latencyLen queueLen

def Pending (s : Shared ι) : Prop := s.latency ≠ [] ∨ s.queue ≠ []

/-- The reader will not look at the queues before it is notified. -/
def Armed (s : Shared ι) : Prop :=
  (s.reader = .waiting ∨ s.reader = .parked ∨ s.reader = .popQueue ∧ s.queue = []) ∧
    s.permit = false

/-- If packets lie before a reader that waits, an injector is going to tell it. -/
def Owed (s : Shared ι) : Prop :=
  Armed s → Pending s → Informed s s.latency.length s.queue.length

/-- What `inject_packet` is about to push. -/
def Injector.single : Injector → Option PacketBuf
  | .pushing packet .one | .repushing packet .one => some packet
  | _ => none

/-- An `inject_packet` does not push behind a packet where the reader will not look
before it is notified, or another injector is going to notify even so. -/
def Covered (s : Shared ι) : Event ι → Prop
  | .push i => ∀ packet ∈ (s.injectors i).single, s.HasRoom packet → Pending s →
      Armed (s.accept packet) →
      Informed s (s.accept packet).latency.length (s.accept packet).queue.length
  | _ => True

/-- Nobody is injecting, and the reader sleeps in front of a packet. -/
def Lost (s : Shared ι) : Prop :=
  (∀ i, ∃ code, s.injectors i = .idle code) ∧ Pending s ∧ s.reader = .parked ∧ s.permit = false

theorem Owed.not_lost {s : Shared ι} (h : Owed s) : ¬ Lost s := by
  rintro ⟨hidle, hpending, hparked, hpermit⟩
  obtain ⟨i, hi⟩ := h ⟨.inr (.inl hparked), hpermit⟩ hpending
  obtain ⟨code, hcode⟩ := hidle i
  rw [hcode] at hi
  exact hi

theorem owed_start (senderId : BitVec 64) : Owed (start ι senderId) :=
  fun _ hpending => hpending.elim (absurd rfl) (absurd rfl)

/-- A reader that is going to look is owed nothing. -/
theorem owed_of_not_armed {s : Shared ι} (h : ¬ Armed s) : Owed s := fun harmed => absurd harmed h

theorem not_armed_of_popLatency {s : Shared ι} (h : s.reader = .popLatency) : ¬ Armed s := by
  rintro ⟨hreader, _⟩
  rw [h] at hreader
  rcases hreader with hreader | hreader | hreader
  · exact nomatch hreader
  · exact nomatch hreader
  · exact nomatch hreader.1

theorem notify_not_armed (s : Shared ι) : ¬ Armed s.notify := by
  rw [notify]
  split_ifs with hparked
  · exact not_armed_of_popLatency rfl
  · exact fun harmed => Bool.false_ne_true harmed.2.symm

/-! ### The reader -/

theorem frame_reader (s : Shared ι) (queued : Queued) : (s.frame queued).reader = s.reader := by
  rw [frame]
  split
  · rfl
  · rfl

/-- The steps of the reader. -/
inductive Looked (s : Shared ι) : Shared ι → Prop
  | latencyEmpty (hreader : s.reader = .popLatency) (hlatency : s.latency = []) :
      Looked s { s with reader := .popQueue }
  | latencyTaken {queued : Queued} {latency : List Queued} (hreader : s.reader = .popLatency)
      (hlatency : s.latency = queued :: latency) : Looked s ({ s with latency }.frame queued)
  | queueEmpty (hreader : s.reader = .popQueue) (hqueue : s.queue = []) :
      Looked s { s with reader := .waiting }
  | queueTaken {queued : Queued} {queue : List Queued} (hreader : s.reader = .popQueue)
      (hqueue : s.queue = queued :: queue) :
      Looked s ({ s with queue, reader := .popLatency }.frame queued)
  | permitted (hreader : s.reader = .waiting) :
      Looked s { s with permit := false, reader := .popLatency }
  | parked (hreader : s.reader = .waiting) (hpermit : s.permit = false) :
      Looked s { s with reader := .parked }

theorem looked {s t : Shared ι} (hstep : s.read = some t) : Looked s t := by
  rw [Shared.read] at hstep
  split at hstep
  · next hreader =>
    split at hstep
    · next hlatency =>
      rw [← Option.some.inj hstep]
      exact .latencyEmpty hreader hlatency
    · next hlatency =>
      rw [← Option.some.inj hstep]
      exact .latencyTaken hreader hlatency
  · next hreader =>
    split at hstep
    · next hqueue =>
      rw [← Option.some.inj hstep]
      exact .queueEmpty hreader hqueue
    · next hqueue =>
      rw [← Option.some.inj hstep]
      exact .queueTaken hreader hqueue
  · next hreader =>
    split_ifs at hstep with hpermit
    · rw [← Option.some.inj hstep]
      exact .permitted hreader
    · rw [← Option.some.inj hstep]
      exact .parked hreader (Bool.eq_false_of_not_eq_true hpermit)
  · exact nomatch hstep

theorem Owed.read {s t : Shared ι} (h : Owed s) (hstep : s.read = some t) : Owed t := by
  cases looked hstep with
  | latencyEmpty hreader hlatency =>
    -- the second look finds something, or both are empty
    rintro ⟨hwaiting | hparked | ⟨_, hqueue⟩, _⟩ hpending
    · exact nomatch hwaiting
    · exact nomatch hparked
    · exact absurd hpending (not_or.mpr ⟨not_not.mpr hlatency, not_not.mpr hqueue⟩)
  | latencyTaken hreader hlatency =>
    exact owed_of_not_armed (not_armed_of_popLatency ((frame_reader _ _).trans hreader))
  | queueEmpty hreader hqueue =>
    -- it was armed already
    intro harmed
    exact h ⟨.inr (.inr ⟨hreader, hqueue⟩), harmed.2⟩
  | queueTaken hreader hqueue =>
    exact owed_of_not_armed (not_armed_of_popLatency (frame_reader _ _))
  | permitted hreader => exact owed_of_not_armed (not_armed_of_popLatency rfl)
  | parked hreader hpermit =>
    intro harmed
    exact h ⟨.inl hreader, hpermit⟩

/-! ### The injectors -/

theorem informs_burstNext {rest : List PacketBuf} {queued failed latencyLen queueLen : ℕ} :
    (burstNext rest queued failed).Informs latencyLen queueLen ↔ 0 < queued := by
  cases rest with
  | nil =>
    rw [burstNext]
    by_cases hqueued : 0 < queued
    · rw [if_pos hqueued]
      exact iff_of_true trivial hqueued
    · rw [if_neg hqueued]
      exact iff_of_false id hqueued
  | cons packet rest => exact decide_eq_true_iff

theorem Injector.single_eq_some {injector : Injector} {packet : PacketBuf} :
    injector.single = some packet ↔
      injector = .pushing packet .one ∨ injector = .repushing packet .one := by
  constructor
  · intro h
    unfold Injector.single at h
    split at h
    · exact .inl (Option.some.inj h ▸ rfl)
    · exact .inr (Option.some.inj h ▸ rfl)
    · exact nomatch h
  · rintro (rfl | rfl)
    · rfl
    · rfl

/-- A push that fails does not change what the call is going to do. -/
theorem informs_finish_false {call : Call} {latencyLen queueLen : ℕ} :
    (call.finish false).Informs latencyLen queueLen ↔ call.announces := by
  cases call with
  | one => exact iff_of_false id Bool.false_ne_true
  | burst rest queued failed => exact informs_burstNext.trans decide_eq_true_iff.symm

theorem length_accept (s : Shared ι) (packet : PacketBuf) :
    (s.accept packet).latency.length + (s.accept packet).queue.length =
      s.latency.length + s.queue.length + 1 := by
  rw [accept]
  split_ifs with hkeep
  · show (s.latency ++ [_]).length + s.queue.length = _
    rw [List.length_append, List.length_singleton]
    omega
  · show s.latency.length + (s.queue ++ [_]).length = _
    rw [List.length_append, List.length_singleton]
    omega

theorem accept_injectors (s : Shared ι) (packet : PacketBuf) :
    (s.accept packet).injectors = s.injectors := by
  rw [accept]
  split_ifs with hkeep
  · rfl
  · rfl

/-- Dropping the oldest packet of `latency` does not keep an injector from reading 1,
unless nothing is left. -/
theorem Owed.evict {s : Shared ι} (h : Owed s) :
    Owed { s with latency := s.latency.tail } := by
  intro harmed hpending
  by_cases hlatency : s.latency = []
  · have htail : s.latency.tail = s.latency := by rw [hlatency, List.tail_nil]
    rw [htail] at hpending ⊢
    exact h harmed hpending
  · obtain ⟨i, hi⟩ := h harmed (.inl hlatency)
    have hpos : 0 < s.latency.length := List.length_pos_iff.mpr hlatency
    have hlen : 0 < s.latency.tail.length + s.queue.length := by
      rcases hpending with hpending | hpending
      · exact Nat.add_pos_left (List.length_pos_iff.mpr hpending) _
      · exact Nat.add_pos_right _ (List.length_pos_iff.mpr hpending)
    rw [List.length_tail] at hlen
    refine ⟨i, ?_⟩
    show (s.injectors i).Informs s.latency.tail.length s.queue.length
    generalize s.injectors i = injector at hi ⊢
    cases injector with
    | measuring =>
      -- it would read 2 at least
      have hone : s.latency.length + s.queue.length = 1 := hi
      omega
    | idle code => exact hi
    | pushing packet call => exact hi
    | evicting packet call => exact hi
    | repushing packet call => exact hi
    | measured latencyLen => exact hi
    | notifying => exact hi

variable [DecidableEq ι]

theorem informed_setInjector_iff {s : Shared ι} {latencyLen queueLen : ℕ} {i : ι}
    {injector : Injector} : Informed (s.setInjector i injector) latencyLen queueLen ↔
      injector.Informs latencyLen queueLen ∨
        ∃ j ≠ i, (s.injectors j).Informs latencyLen queueLen :=
  Function.exists_update_iff s.injectors fun _ x => x.Informs latencyLen queueLen

/-- An injector goes on as before, and the others do too. -/
theorem Informed.setInjector {s : Shared ι} {latencyLen queueLen : ℕ}
    (h : Informed s latencyLen queueLen) {i : ι} {injector : Injector}
    (hi : (s.injectors i).Informs latencyLen queueLen → injector.Informs latencyLen queueLen) :
    Informed (s.setInjector i injector) latencyLen queueLen := by
  rw [informed_setInjector_iff]
  obtain ⟨j, hj⟩ := h
  by_cases hji : j = i
  · exact .inl (hi (hji ▸ hj))
  · exact .inr ⟨j, hji, hj⟩

theorem Owed.setInjector {s : Shared ι} (h : Owed s) {i : ι} {injector : Injector}
    (hi : (s.injectors i).Informs s.latency.length s.queue.length →
      injector.Informs s.latency.length s.queue.length) :
    Owed (s.setInjector i injector) :=
  fun harmed hpending => (h harmed hpending).setInjector hi

/-! ### What a step does -/

/-- What an injector is about to push. -/
def Injector.carried : Injector → Option PacketBuf
  | .pushing packet _ | .repushing packet _ => some packet
  | _ => none

/-- The steps, by what they do to the queues. -/
inductive Stepped (s : Shared ι) : Event ι → Shared ι → Prop
  | read {t : Shared ι} (hread : s.read = some t) : Stepped s .read t
  | accepted {i : ι} {packet : PacketBuf} {call : Call}
      (hi : s.injectors i = .pushing packet call ∨ s.injectors i = .repushing packet call)
      (hroom : s.HasRoom packet) :
      Stepped s (.push i) ((s.accept packet).setInjector i (call.finish true))
  /-- The injector goes on without an effect on the queues. -/
  | moved {e : Event ι} {i : ι} {injector : Injector}
      (hinforms : (s.injectors i).Informs s.latency.length s.queue.length →
        injector.Informs s.latency.length s.queue.length)
      (hfull : ∀ j, e = .push j → ∀ packet ∈ (s.injectors j).carried, ¬ s.HasRoom packet) :
      Stepped s e (s.setInjector i injector)
  | evicted {i : ι} {packet : PacketBuf} {call : Call} (hi : s.injectors i = .evicting packet call) :
      Stepped s (.evict i)
        ({ s with latency := s.latency.tail }.setInjector i (.repushing packet call))
  | notified {i : ι} : Stepped s (.notifyOne i) (s.setInjector i (.idle 0)).notify

theorem Injector.carried_of_single {injector : Injector} {packet : PacketBuf}
    (h : injector.single = some packet) : injector.carried = some packet := by
  rcases Injector.single_eq_some.mp h with rfl | rfl
  · rfl
  · rfl

theorem Stepped.push {s t : Shared ι} {i : ι} (hstep : s.push i = some t) :
    Stepped s (.push i) t := by
  -- the packet that the injector carries has not found room
  have hfull : ∀ packet, (s.injectors i).carried = some packet → ¬ s.HasRoom packet →
      ∀ j, Event.push i = .push j → ∀ other ∈ (s.injectors j).carried, ¬ s.HasRoom other := by
    intro packet hcarried hroom j hj other hother
    obtain rfl : i = j := Event.push.inj hj
    rw [hcarried] at hother
    rwa [← Option.some.inj hother]
  rw [Shared.push] at hstep
  split at hstep
  · next packet call hi =>
    have hcarried : (s.injectors i).carried = some packet := by
      rw [hi]
      rfl
    split_ifs at hstep with hroom hkeep
    · rw [← Option.some.inj hstep]
      exact .accepted (.inl hi) hroom
    · rw [← Option.some.inj hstep]
      refine .moved (fun hinforms => ?_) (hfull packet hcarried hroom)
      rwa [hi] at hinforms
    · rw [← Option.some.inj hstep]
      refine .moved (fun hinforms => ?_) (hfull packet hcarried hroom)
      rw [hi] at hinforms
      exact informs_finish_false.mpr hinforms
  · next packet call hi =>
    have hcarried : (s.injectors i).carried = some packet := by
      rw [hi]
      rfl
    split_ifs at hstep with hroom
    · rw [← Option.some.inj hstep]
      exact .accepted (.inr hi) hroom
    · rw [← Option.some.inj hstep]
      refine .moved (fun hinforms => ?_) (hfull packet hcarried hroom)
      rw [hi] at hinforms
      exact informs_finish_false.mpr hinforms
  · exact nomatch hstep

theorem stepped {s t : Shared ι} {e : Event ι} (hstep : s.step e = some t) : Stepped s e t := by
  cases e with
  | inject i data acquired =>
    rw [Shared.step] at hstep
    split at hstep
    · next hi =>
      rw [← Option.some.inj hstep]
      refine .moved (fun hinforms => ?_) (fun _ he => nomatch he)
      rw [hi] at hinforms
      exact hinforms.elim
    · exact nomatch hstep
  | injectBurst i packets =>
    rw [Shared.step] at hstep
    split at hstep
    · next hi =>
      rw [← Option.some.inj hstep]
      refine .moved (fun hinforms => ?_) (fun _ he => nomatch he)
      rw [hi] at hinforms
      exact hinforms.elim
    · exact nomatch hstep
  | push i => exact .push hstep
  | evict i =>
    rw [Shared.step] at hstep
    split at hstep
    · next hi =>
      rw [← Option.some.inj hstep]
      exact .evicted hi
    · exact nomatch hstep
  | readLatencyLen i =>
    rw [Shared.step] at hstep
    split at hstep
    · next hi =>
      rw [← Option.some.inj hstep]
      refine .moved (fun hinforms => ?_) (fun _ he => nomatch he)
      rwa [hi] at hinforms
    · exact nomatch hstep
  | readQueueLen i =>
    rw [Shared.step] at hstep
    split at hstep
    · next latencyLen hi =>
      rw [← Option.some.inj hstep]
      refine .moved (fun hinforms => ?_) (fun _ he => nomatch he)
      rw [hi] at hinforms
      -- an injector that would have announced goes on to the notification
      have hone : latencyLen + s.queue.length = 1 := hinforms
      rw [if_pos hone]
      exact trivial
    · exact nomatch hstep
  | notifyOne i =>
    rw [Shared.step] at hstep
    split at hstep
    · rw [← Option.some.inj hstep]
      exact .notified
    · exact nomatch hstep
  | read => exact .read hstep

/-! ### A run -/

/-- A push that finds room: the first packet is the injector's own to announce. -/
theorem owed_accept {s : Shared ι} {i : ι} {packet : PacketBuf} {call : Call}
    (hquiet : ∀ latencyLen queueLen, (s.injectors i).Informs latencyLen queueLen → call.announces)
    (hok : call = .one → Pending s → Armed (s.accept packet) →
      Informed s (s.accept packet).latency.length (s.accept packet).queue.length) :
    Owed ((s.accept packet).setInjector i (call.finish true)) := by
  intro harmed _
  cases call with
  | burst rest queued failed =>
    exact informed_setInjector_iff.mpr (.inl (informs_burstNext.mpr (Nat.succ_pos queued)))
  | one =>
    by_cases hpending : Pending s
    · obtain ⟨j, hj⟩ := hok rfl hpending harmed
      have hinformed : Informed (s.accept packet) (s.accept packet).latency.length
          (s.accept packet).queue.length := ⟨j, by rwa [accept_injectors]⟩
      refine hinformed.setInjector fun hi => ?_
      rw [accept_injectors] at hi
      exact absurd (hquiet _ _ hi) Bool.false_ne_true
    · obtain ⟨hlatency, hqueue⟩ := not_or.mp hpending
      refine informed_setInjector_iff.mpr (.inl ?_)
      show (s.accept packet).latency.length + (s.accept packet).queue.length = 1
      rw [length_accept, not_not.mp hlatency, not_not.mp hqueue]
      rfl

theorem Owed.step {s t : Shared ι} {e : Event ι} (h : Owed s) (hok : Covered s e)
    (hstep : s.step e = some t) : Owed t := by
  cases stepped hstep with
  | read hread => exact h.read hread
  | accepted hi hroom =>
    refine owed_accept (fun _ _ hinforms => ?_) fun hcall => ?_
    · rcases hi with hi | hi
      · rwa [hi] at hinforms
      · rwa [hi] at hinforms
    · rw [hcall] at hi
      exact hok _ (Injector.single_eq_some.mpr hi) hroom
  | moved hinforms _ => exact h.setInjector hinforms
  | evicted hi =>
    refine h.evict.setInjector fun hinforms => ?_
    rwa [show s.injectors _ = _ from hi] at hinforms
  | notified => exact owed_of_not_armed (notify_not_armed _)

/-- What a reader is owed after an `inject_packet` has pushed behind a packet, it is owed by
another injector. -/
theorem informed_of_owed_accept {s : Shared ι} {i : ι} {packet : PacketBuf}
    (h : Owed ((s.accept packet).setInjector i .measuring)) (hpending : Pending s)
    (harmed : Armed (s.accept packet)) :
    Informed s (s.accept packet).latency.length (s.accept packet).queue.length := by
  have hsum := length_accept s packet
  have hpos : 0 < s.latency.length + s.queue.length := by
    rcases hpending with hlatency | hqueue
    · exact Nat.add_pos_left (List.length_pos_iff.mpr hlatency) _
    · exact Nat.add_pos_right _ (List.length_pos_iff.mpr hqueue)
  have hsome : Pending (s.accept packet) := by
    by_contra hnone
    obtain ⟨hlatency, hqueue⟩ := not_or.mp hnone
    rw [not_not.mp hlatency, not_not.mp hqueue] at hsum
    simp at hsum
  rcases informed_setInjector_iff.mp (h harmed hsome) with hone | ⟨j, _, hj⟩
  · -- its own sum is 2 at least
    have hone : (s.accept packet).latency.length + (s.accept packet).queue.length = 1 := hone
    omega
  · rw [accept_injectors] at hj
    exact ⟨j, hj⟩

theorem covered_of_owed {s t : Shared ι} {e : Event ι} (h : Owed t) (hstep : s.step e = some t) :
    Covered s e := by
  cases stepped hstep with
  | read hread => trivial
  | accepted hi hroom =>
    intro packet hsingle _ hpending harmed
    -- an `inject_packet` goes on to read the lengths
    rcases Injector.single_eq_some.mp hsingle with hi' | hi'
    all_goals rw [hi'] at hi
    · obtain ⟨rfl, rfl⟩ := Injector.pushing.inj (hi.resolve_right (nomatch ·))
      exact informed_of_owed_accept h hpending harmed
    · obtain ⟨rfl, rfl⟩ := Injector.repushing.inj (hi.resolve_left (nomatch ·))
      exact informed_of_owed_accept h hpending harmed
  | moved _ hfull =>
    cases e with
    | push i =>
      intro packet hsingle hroom
      exact absurd hroom (hfull i rfl packet (Injector.carried_of_single hsingle))
    | inject i data acquired => trivial
    | injectBurst i packets => trivial
    | evict i => trivial
    | readLatencyLen i => trivial
    | readQueueLen i => trivial
    | notifyOne i => trivial
    | read => trivial
  | evicted hi => trivial
  | notified => trivial

/-- A waiting reader is owed its notification along a run exactly when the pushes of the
run are covered. -/
theorem owed_iff_covered (senderId : BitVec 64) (events : List (Event ι)) :
    Always step Owed (start ι senderId) events ↔ Admits step Covered (start ι senderId) events :=
  always_iff_admits (Q := fun _ => True) (fun _ _ _ _ _ => trivial)
    (fun _ _ _ _ h hstep => ⟨fun ht => covered_of_owed ht hstep, fun hok => h.step hok hstep⟩)
    trivial (owed_start senderId)

/-- **No wake-up is lost** while every push that needs it is covered. -/
theorem no_lost_uplink_wakeup (senderId : BitVec 64) (events : List (Event ι))
    (hcovered : Admits step Covered (start ι senderId) events) :
    Always step (fun s => ¬ Lost s) (start ι senderId) events :=
  ((owed_iff_covered senderId events).mpr hcovered).mono fun _ h => h.not_lost

/-! ### Two injectors -/

section Decidable

variable [Fintype ι]

instance (latencyLen queueLen : ℕ) :
    (injector : Injector) → Decidable (injector.Informs latencyLen queueLen)
  | .idle _ => isFalse id
  | .pushing _ _ | .evicting _ _ | .repushing _ _ => inferInstanceAs (Decidable (_ = true))
  | .measuring | .measured _ => inferInstanceAs (Decidable (_ = 1))
  | .notifying => isTrue trivial

instance (s : Shared ι) (latencyLen queueLen : ℕ) : Decidable (Informed s latencyLen queueLen) :=
  inferInstanceAs (Decidable (∃ _, _))

instance (s : Shared ι) : Decidable (Pending s) := inferInstanceAs (Decidable (_ ∨ _))

instance (s : Shared ι) : Decidable (Armed s) := inferInstanceAs (Decidable (_ ∧ _))

instance (s : Shared ι) : DecidablePred (Covered s)
  | .push _ => inferInstanceAs (Decidable (∀ _ ∈ _, _ → _ → _ → _))
  | .inject .. | .injectBurst .. | .evict _ | .readLatencyLen _ | .readQueueLen _ | .notifyOne _
  | .read => isTrue trivial

end Decidable

/-- The reader finds both queues empty and parks; two calls are given a byte each. -/
def parkThenInject : List (Event (Fin 2)) :=
  [.read, .read, .read, .inject ⟨0, Nat.two_pos⟩ [0] true, .inject ⟨1, Nat.one_lt_two⟩ [0] true]

/-- The second packet is pushed when the first injector has read both lengths. -/
theorem second_injection_covered :
    Always step (fun s => ¬ Lost s) (start (Fin 2) 7)
      (parkThenInject ++ [.push 0, .readLatencyLen 0, .readQueueLen 0, .push 1, .readLatencyLen 1,
        .readQueueLen 1, .notifyOne 0]) :=
  no_lost_uplink_wakeup 7 _ (by decide)

/-- Both packets are pushed before either injector reads a length. -/
theorem two_injections_lost :
    ¬ ∀ (senderId : BitVec 64) (events : List (Event (Fin 2))),
      Always step (fun s => ¬ Lost s) (start (Fin 2) senderId) events := by
  intro hclaim
  have hrun := hclaim 7 (parkThenInject ++ [Event.push 0, .push 1, .readLatencyLen 0,
    .readQueueLen 0, .readLatencyLen 1, .readQueueLen 1])
  obtain ⟨t, ht, hlost⟩ : ∃ t, run step (start (Fin 2) 7) (parkThenInject ++ [Event.push 0, .push 1,
      .readLatencyLen 0, .readQueueLen 0, .readLatencyLen 1, .readQueueLen 1]) = some t ∧ Lost t :=
    ⟨_, rfl, Fin.forall_fin_two.mpr ⟨⟨0, rfl⟩, ⟨0, rfl⟩⟩, by decide, rfl, rfl⟩
  exact always_iff_prefixes.mp hrun _ List.prefix_rfl t ht hlost

end Csqtt.UplinkBridge
