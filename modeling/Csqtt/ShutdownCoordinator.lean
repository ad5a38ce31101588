/-
The coordinator of an engine's goodbye.

Each session registers its writer with the coordinator of its engine, and drops the
registration when it ends.  The first `request_disconnect` is the leader: it goes through
the writers, the one that was active last first.  The others wait for it.  `active` is
never taken back, and who registers after that is not remembered.

A stream is told by its incarnation here, which stands for the sender to its writer.  Its
`activity` is an atomic of its own in the source, and `mark_activity` is one step here.
-/
import Csqtt.Demux
import Mathlib.Data.List.Sort

namespace Csqtt.Shutdown

open Demux

/-- In milliseconds. -/
def disconnectBudget : ℕ := 700

/-- In milliseconds. -/
def disconnectAttempt : ℕ := 80

structure ShutdownControlStream where
  incarnationId : ℕ
  activity : ℕ
  deriving DecidableEq

structure ShutdownCoordinator extends ShutdownState where
  streams : List ShutdownControlStream
  nextActivity : ℕ
  deriving DecidableEq

/-- The order of `control_streams`: the last activity first. -/
def ShutdownControlStream.before (left right : ShutdownControlStream) : Prop :=
  right.activity < left.activity ∨
    (right.activity = left.activity ∧ right.incarnationId ≤ left.incarnationId)

instance : DecidableRel ShutdownControlStream.before :=
  fun _ _ => inferInstanceAs (Decidable (_ ∨ _))

namespace ShutdownCoordinator

def new : ShutdownCoordinator where
  active := false
  completed := false
  streams := []
  nextActivity := 1

/-- `next_activity`. -/
def takeActivity (c : ShutdownCoordinator) : ℕ × ShutdownCoordinator :=
  (max c.nextActivity 1, { c with nextActivity := c.nextActivity + 1 })

/-- The section of `register`. -/
def register (c : ShutdownCoordinator) (incarnationId activity : ℕ) : ShutdownCoordinator :=
  if c.active then c else { c with streams := c.streams ++ [{ incarnationId, activity }] }

def markActivity (c : ShutdownCoordinator) (incarnationId : ℕ) : ShutdownCoordinator :=
  let (activity, c) := c.takeActivity
  { c with
    streams := c.streams.map fun stream =>
      if stream.incarnationId = incarnationId then { stream with activity } else stream }

/-- The leader's section in `request_disconnect`. -/
def lead (c : ShutdownCoordinator) : ShutdownCoordinator :=
  { c with active := true, completed := false }

def observe (c : ShutdownCoordinator) (response : Packet) : ShutdownCoordinator :=
  { c with toShutdownState := (observeControlResponse c.toShutdownState response).2 }

def controlStreams (c : ShutdownCoordinator) : List ℕ :=
  (c.streams.insertionSort ShutdownControlStream.before).map (·.incarnationId)

def complete (c : ShutdownCoordinator) : ShutdownCoordinator := { c with completed := true }

def unregister (c : ShutdownCoordinator) (incarnationId : ℕ) : ShutdownCoordinator :=
  { c with streams := c.streams.filter (·.incarnationId ≠ incarnationId) }

/-! ### Who is remembered -/

/-- The streams, in the order in which they have registered. -/
def ids (c : ShutdownCoordinator) : List ℕ := c.streams.map (·.incarnationId)

variable {c : ShutdownCoordinator} {id other activity : ℕ}

theorem mem_controlStreams : id ∈ c.controlStreams ↔ id ∈ c.ids :=
  ((List.perm_insertionSort _ c.streams).map _).mem_iff

theorem mem_ids_register (h : c.active = false) :
    other ∈ (c.register id activity).ids ↔ other ∈ c.ids ∨ other = id := by
  rw [register, h, if_neg Bool.false_ne_true, ids, List.map_append, List.mem_append]
  exact or_congr_right List.mem_singleton

theorem register_late (h : c.active) : c.register id activity = c := if_pos h

theorem mem_ids_unregister : other ∈ (c.unregister id).ids ↔ other ∈ c.ids ∧ other ≠ id := by
  rw [unregister, ids, ids, List.mem_map, List.mem_map]
  constructor
  · rintro ⟨stream, hstream, rfl⟩
    obtain ⟨hold, hne⟩ := List.mem_filter.mp hstream
    exact ⟨⟨stream, hold, rfl⟩, of_decide_eq_true hne⟩
  · rintro ⟨⟨stream, hold, rfl⟩, hne⟩
    exact ⟨stream, List.mem_filter.mpr ⟨hold, decide_eq_true hne⟩, rfl⟩

theorem ids_markActivity : (c.markActivity id).ids = c.ids := by
  show (c.streams.map _).map _ = c.streams.map _
  rw [List.map_map]
  refine List.map_congr_left fun stream _ => ?_
  show (if stream.incarnationId = id then _ else stream).incarnationId = _
  split_ifs <;> rfl

/-- A reply changes nothing but `completed`. -/
theorem observe_cases (c : ShutdownCoordinator) (response : Packet) : c.observe response = c ∨
    ((observeControlResponse c.toShutdownState response).1 ∧ c.observe response = c.complete) := by
  rw [observe, observeControlResponse]
  split_ifs with hforeign hlate
  · exact .inl rfl
  · exact .inl rfl
  · exact .inr ⟨rfl, rfl⟩

end ShutdownCoordinator

end Csqtt.Shutdown
