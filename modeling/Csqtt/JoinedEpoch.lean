/-
The generation of a GETCONF and the offset that is recorded for it.

`build_registration_payload` reads `GEN_OFFSET` twice: once in `generation`, whose result goes
into the GETCONF, and once more for the offset that `note_path_joined` records when the server
has answered.  `note_path_lost` compares what is recorded with `GEN_OFFSET` and opens a new
epoch if they agree.  Other workers and the idle monitor bump `GEN_OFFSET` at any time, also
between the two reads.

A run also keeps what the first read has found and what is recorded for each worker; the code
sees neither.

* `joined_epoch_iff` — the offsets are those of the GETCONFs, and a path that is lost opens a
  new epoch only from the one it has joined, exactly when nobody bumps between two such reads
  and no saturated offset is recorded;
* `bump_between_reads` — a bump between the reads is recorded as a join.
-/
import Csqtt.Announce

open Transition

namespace Csqtt.JoinedEpoch

open Idle (Memory Call callStep saturatingAdd joinedSlots notePathLost)
open Announce (Build Phase Session SessionLabel sessionStep)

/-! ### What a session has in hand -/

/-- What has been read of a GETCONF that nobody has recorded yet. -/
structure Hand where
  generation : Option (BitVec 64)
  offset : Option (BitVec 64)
  deriving DecidableEq

def empty : Hand := ⟨none, none⟩

def ofBuild : Build → Hand
  | .readGeneration => empty
  | .readOffset generation => ⟨some generation, none⟩
  | .readDeclared generation offset | .send generation offset _ => ⟨some generation, some offset⟩

def inHand (x : Session) : Hand :=
  match x.phase with
  | .requesting _ build | .announcing _ build => ofBuild build
  | .awaiting _ offset | .joining offset | .rejoining _ offset =>
    ⟨x.lastSent.map (·.generation), some offset⟩
  | .idle | .registered | .waiting _ | .changed => empty

/-- What a step of a session does to the statics. -/
inductive Action where
  | readGeneration
  | readOffset
  | join (offset : BitVec 64)
  | other
  deriving DecidableEq

def action (x : Session) : SessionLabel → Action
  | .advance =>
    match x.phase with
    | .requesting _ .readGeneration | .announcing _ .readGeneration => .readGeneration
    | .requesting _ (.readOffset _) | .announcing _ (.readOffset _) => .readOffset
    | .joining offset | .rejoining _ offset => .join offset
    | _ => .other
  | _ => .other

/-- The step of a session by its action. -/
def Moved (id : ℕ) (generation : BitVec 64) (m : Memory) (x x' : Session) (m' : Memory) :
    Action → Prop
  | .readGeneration => inHand x' = ⟨some (m.generation generation), none⟩ ∧ m' = m
  | .readOffset =>
    ∃ read, inHand x = ⟨some read, none⟩ ∧ inHand x' = ⟨some read, some m.genOffset⟩ ∧ m' = m
  | .join offset =>
    inHand x = ⟨x.lastSent.map (·.generation), some offset⟩ ∧ inHand x' = empty ∧
      m' = m.notePathJoined id offset
  | .other => (inHand x' = inHand x ∨ inHand x' = empty) ∧ m' = m

/-! ### The engine -/

/-- What is recorded for a worker. -/
structure Record where
  /-- The generation in the GETCONF. -/
  generation : Option (BitVec 64)
  /-- The `GEN_OFFSET` contained in it. -/
  baked : BitVec 64
  offset : BitVec 64
  deriving DecidableEq

/-- A bump of `note_path_lost`: what was recorded for its worker, and the generation then. -/
structure Bump where
  recorded : Option Record
  generation : BitVec 64
  deriving DecidableEq

structure State where
  idle : Idle.State
  /-- By the ids of the workers. -/
  session : ℕ → Session
  /-- The `GEN_OFFSET` in the last generation that the worker has read. -/
  baked : ℕ → BitVec 64
  recorded : ℕ → Option Record
  bumps : List Bump

inductive Event where
  /-- A task calls `enter` or `exit`. -/
  | enter (t keep : ℕ)
  | exit (t : ℕ)
  /-- The session of the worker fails, which calls `note_path_lost`. -/
  | lost (w : ℕ)
  /-- The next access of the call that a task is in. -/
  | access (t : ℕ)
  | session (w : ℕ) (label : SessionLabel)
  deriving DecidableEq

namespace State

def memory (s : State) : Memory := s.idle.memory

/-- After `reset`. -/
def init (total : ℕ) : State where
  idle := Idle.State.afterReset total
  session := fun _ => {}
  baked := fun _ => 0
  recorded := fun _ => none
  bumps := []

def noteBump (generation : BitVec 64) (s : State) : Call → List Bump
  | .lostCompareExchange w current =>
    if s.memory.genOffset = current then
      { recorded := s.recorded w, generation := s.memory.generation generation } :: s.bumps
    else s.bumps
  | _ => s.bumps

def noteRead (s : State) (w : ℕ) : Action → ℕ → BitVec 64
  | .readGeneration => Function.update s.baked w s.memory.genOffset
  | _ => s.baked

def noteRecord (s : State) (w : ℕ) : Action → ℕ → Option Record
  | .join offset =>
    if joinedSlots ≤ w ∨ w = 0 then s.recorded
    else Function.update s.recorded w (some
      { generation := (s.session w).lastSent.map (·.generation), baked := s.baked w, offset })
  | _ => s.recorded

/-- The session of the worker takes the step. -/
def move (s : State) (w : ℕ) (a : Action) (x : Session) (m : Memory) : State where
  idle := { s.idle with memory := m }
  session := Function.update s.session w x
  baked := s.noteRead w a
  recorded := s.noteRecord w a
  bumps := s.bumps

def step (generation : BitVec 64) (s : State) : Event → Option State
  | .enter t keep => (Idle.step s.idle (.start t (Idle.enter keep))).map fun idle => { s with idle }
  | .exit t => (Idle.step s.idle (.start t Idle.exit)).map fun idle => { s with idle }
  | .lost w =>
    match (s.session w).phase with
    | .waiting _ => (Idle.step s.idle (.start w (notePathLost w))).map fun idle =>
        { s with idle, session := Function.update s.session w {} }
    | _ => none
  | .access t => (s.idle.call t).map fun c =>
      { s with idle := s.idle.access t c, bumps := s.noteBump generation c }
  | .session w l =>
    match s.idle.call w with
    | none => (sessionStep ⟨w, generation⟩ s.memory (s.session w) l).map fun r =>
        s.move w (action (s.session w) l) r.1 r.2
    | some _ => none

end State

open State

/-- The offsets are those of the GETCONFs, in hand and recorded, and the bumps were made from
the epoch that the lost path had joined. -/
structure Kept (s : State) : Prop where
  held : ∀ w offset, (inHand (s.session w)).offset = some offset → offset = s.baked w
  recorded : ∀ w r, s.recorded w = some r → r.offset = r.baked
  bumps : ∀ b ∈ s.bumps, b.recorded.bind Record.generation = some b.generation

/-- The second read finds what the first one has found; and with the generation 0 no path is
lost whose recorded offset is `u64::MAX`, which `note_path_joined` could not add one to. -/
def Undisturbed (generation : BitVec 64) (s : State) : Event → Prop
  | .session w l => action (s.session w) l = .readOffset → s.memory.genOffset = s.baked w
  | .access t => ∀ w current, s.idle.call t = some (.lostCompareExchange w current) →
      s.memory.genOffset = current →
      generation ≠ 0 ∨ ∀ r, s.recorded w = some r → r.offset ≠ BitVec.allOnes 64
  | _ => True

/-! ### What the run keeps in any case -/

/-- The generation in hand was made of the offset of the first read. -/
def Held (generation baked : BitVec 64) (hand : Hand) : Prop :=
  hand = empty ∨ hand.generation = some (saturatingAdd generation baked)

/-- A worker is in `note_path_lost` for itself, and nobody else stores to its slot. -/
def Losing (joined : ℕ → BitVec 64) (t : ℕ) : Call → Prop
  | .lostLoadLimit w | .lostLoadJoined w | .lostClearSlot w => w = t
  | .lostLoadGeneration w loaded => w = t ∧ loaded = joined t ∧ joined t ≠ 0
  | .lostCompareExchange w current => w = t ∧ current = joined t - 1 ∧ joined t ≠ 0
  | _ => True

/-- The slot of a worker is that of its record, or cleared. -/
def Slotted (joined : BitVec 64) (recorded : Option Record) : Prop :=
  joined = 0 ∨ ∃ r, recorded = some r ∧ joined = saturatingAdd r.offset 1

structure Tracked (generation : BitVec 64) (s : State) : Prop where
  held : ∀ w, Held generation (s.baked w) (inHand (s.session w))
  recorded : ∀ w r, s.recorded w = some r →
    r.generation = some (saturatingAdd generation r.baked)
  slot : ∀ w, Slotted (s.memory.joined w) (s.recorded w)
  calls : ∀ t c, s.idle.call t = some c → Losing s.memory.joined t c

variable {generation baked offset : BitVec 64} {s s' : State} {m m' : Memory} {x x' : Session}
  {l : SessionLabel} {e : Event} {t w id : ℕ} {c : Call}

theorem saturatingAdd_toNat (a b : BitVec 64) :
    (saturatingAdd a b).toNat = min (a.toNat + b.toNat) (2 ^ 64 - 1) := by
  rw [saturatingAdd]
  split_ifs with h
  · rw [BitVec.toNat_add]
    omega
  · rw [BitVec.toNat_allOnes]
    omega

/-- What `note_path_lost` makes of a recorded offset. -/
theorem saturatingAdd_one_sub (offset : BitVec 64) :
    (saturatingAdd offset 1 - 1).toNat = min offset.toNat (2 ^ 64 - 2) := by
  have hadd := saturatingAdd_toNat offset 1
  have hlt := offset.isLt
  rw [show (1 : BitVec 64).toNat = 1 from rfl] at hadd
  rw [BitVec.toNat_sub, hadd, show (1 : BitVec 64).toNat = 1 from rfl]
  omega

theorem ne_allOnes_iff (offset : BitVec 64) :
    offset ≠ BitVec.allOnes 64 ↔ offset.toNat ≠ 2 ^ 64 - 1 := by
  rw [Ne, ← BitVec.toNat_inj, BitVec.toNat_allOnes]

/-- It is the offset again, but for the last one, whose generation is the same if it is
saturated. -/
theorem generation_of_slot (generation offset : BitVec 64) :
    saturatingAdd generation offset = saturatingAdd generation (saturatingAdd offset 1 - 1) ↔
      generation ≠ 0 ∨ offset ≠ BitVec.allOnes 64 := by
  have hgeneration : generation ≠ 0 ↔ generation.toNat ≠ 0 := by
    rw [Ne, ← BitVec.toNat_inj]
    rfl
  have hlt := offset.isLt
  rw [← BitVec.toNat_inj, saturatingAdd_toNat, saturatingAdd_toNat, saturatingAdd_one_sub,
    hgeneration, ne_allOnes_iff]
  omega

/-- A step that makes no read and records nothing. -/
theorem moved_other (phase : Phase)
    (hhand : inHand { x with phase } = inHand x ∨ inHand { x with phase } = empty)
    (h : x.goto m phase = some (x', m')) : Moved id generation m x x' m' .other := by
  obtain ⟨rfl, rfl⟩ := Prod.mk.inj (Option.some.inj h)
  exact ⟨hhand, rfl⟩

theorem sessionStep_moved (h : sessionStep ⟨id, generation⟩ m x l = some (x', m')) :
    Moved id generation m x x' m' (action x l) := by
  obtain ⟨phase, lastSent⟩ := x
  -- only `advance` reads or records; the other labels leave the statics as they are
  cases l with
  | advance =>
    cases phase with
    | requesting attempt build =>
      cases build with
      | readGeneration =>
        obtain ⟨rfl, rfl⟩ := Prod.mk.inj (Option.some.inj h)
        exact ⟨rfl, rfl⟩
      | readOffset read =>
        obtain ⟨rfl, rfl⟩ := Prod.mk.inj (Option.some.inj h)
        exact ⟨read, rfl, rfl, rfl⟩
      | readDeclared read offset =>
        obtain ⟨rfl, rfl⟩ := Prod.mk.inj (Option.some.inj h)
        exact ⟨Or.inl rfl, rfl⟩
      | send read offset declared =>
        obtain ⟨rfl, rfl⟩ := Prod.mk.inj (Option.some.inj h)
        exact ⟨Or.inl rfl, rfl⟩
    | announcing seen build =>
      cases build with
      | readGeneration =>
        obtain ⟨rfl, rfl⟩ := Prod.mk.inj (Option.some.inj h)
        exact ⟨rfl, rfl⟩
      | readOffset read =>
        obtain ⟨rfl, rfl⟩ := Prod.mk.inj (Option.some.inj h)
        exact ⟨read, rfl, rfl, rfl⟩
      | readDeclared read offset =>
        obtain ⟨rfl, rfl⟩ := Prod.mk.inj (Option.some.inj h)
        exact ⟨Or.inl rfl, rfl⟩
      | send read offset declared =>
        obtain ⟨rfl, rfl⟩ := Prod.mk.inj (Option.some.inj h)
        exact ⟨Or.inl rfl, rfl⟩
    | joining offset =>
      obtain ⟨rfl, rfl⟩ := Prod.mk.inj (Option.some.inj h)
      exact ⟨rfl, rfl, rfl⟩
    | rejoining seen offset =>
      obtain ⟨rfl, rfl⟩ := Prod.mk.inj (Option.some.inj h)
      exact ⟨rfl, rfl, rfl⟩
    | registered => exact moved_other _ (Or.inr rfl) h
    | changed => exact moved_other _ (Or.inr rfl) h
    | idle | awaiting | waiting => cases h
  | begin =>
    cases phase with
    | idle =>
      obtain ⟨rfl, rfl⟩ := Prod.mk.inj (Option.some.inj h)
      exact ⟨Or.inr rfl, rfl⟩
    | _ => cases h
  | replyConfig =>
    cases phase with
    | awaiting attempt offset =>
      obtain ⟨rfl, rfl⟩ := Prod.mk.inj (Option.some.inj h)
      exact ⟨Or.inl rfl, rfl⟩
    | _ => cases h
  | replyNoConfig =>
    cases phase with
    | awaiting attempt offset => exact moved_other _ (Or.inr rfl) h
    | _ => cases h
  | timeout =>
    cases phase with
    | awaiting attempt offset =>
      rw [sessionStep] at h
      simp only at h
      split_ifs at h
      · exact moved_other _ (Or.inr rfl) h
      · exact moved_other _ (Or.inr rfl) h
    | _ => cases h
  | sendFails =>
    cases phase with
    | requesting attempt build =>
      cases build with
      | send => exact moved_other _ (Or.inr rfl) h
      | readGeneration | readOffset | readDeclared => cases h
    | announcing seen build =>
      cases build with
      | send => exact moved_other _ (Or.inr rfl) h
      | readGeneration | readOffset | readDeclared => cases h
    | _ => cases h
  | announceChanged =>
    cases phase with
    | waiting seen =>
      rw [sessionStep] at h
      simp only at h
      split_ifs at h
      exact moved_other _ (Or.inr rfl) h
    | _ => cases h
  | leave =>
    cases phase with
    | idle => cases h
    | _ => exact moved_other _ (Or.inr rfl) h

/-! ### The calls -/

theorem Losing.congr {joined joined' : ℕ → BitVec 64} (h : Losing joined t c)
    (heq : joined' t = joined t) : Losing joined' t c := by
  cases c with
  | lostLoadGeneration w loaded =>
    obtain ⟨hw, hloaded, hne⟩ := h
    rw [← heq] at hloaded hne
    exact ⟨hw, hloaded, hne⟩
  | lostCompareExchange w current =>
    obtain ⟨hw, hcurrent, hne⟩ := h
    rw [← heq] at hcurrent hne
    exact ⟨hw, hcurrent, hne⟩
  | _ => exact h

/-- An access of a call to the slots. -/
theorem callStep_joined (h : Losing m.joined t c) :
    (callStep m c).1.joined = m.joined ∨
      (callStep m c).1.joined = Function.update m.joined t 0 := by
  cases c with
  | lostClearSlot w =>
    rw [show w = t from h]
    exact Or.inr rfl
  | enterLoadTotal keep =>
    rw [callStep]
    split_ifs
    · exact Or.inl rfl
    · exact Or.inl rfl
  | lostCompareExchange w current =>
    rw [callStep]
    split_ifs
    · exact Or.inl rfl
    · exact Or.inl rfl
  | _ => exact Or.inl rfl

theorem callStep_losing (h : Losing m.joined t c) {c' : Call} (hc' : (callStep m c).2 = some c') :
    Losing (callStep m c).1.joined t c' := by
  cases c with
  | lostLoadLimit w =>
    rw [callStep] at hc'
    split_ifs at hc'
    rw [← Option.some.inj hc']
    exact h
  | lostLoadJoined w =>
    obtain rfl : w = t := h
    rw [callStep] at hc'
    split_ifs at hc' with hjoined
    rw [← Option.some.inj hc']
    exact ⟨rfl, rfl, hjoined⟩
  | lostLoadGeneration w loaded =>
    -- the exchange is tried only with the offset that the slot stands for
    obtain ⟨hw, hloaded, hne⟩ := h
    rw [callStep] at hc'
    split_ifs at hc' with hcurrent
    rw [← Option.some.inj hc']
    rw [hloaded, not_not] at hcurrent
    exact ⟨hw, hcurrent.symm, hne⟩
  | lostCompareExchange w current =>
    obtain ⟨hw, -, -⟩ := h
    rw [callStep] at hc'
    split_ifs at hc'
    rw [← Option.some.inj hc']
    exact hw
  | enterLoadTotal | enterSwap | exitSwap =>
    simp only [callStep] at hc'
    split_ifs at hc'
    rw [← Option.some.inj hc']
    trivial
  | enterClearSyns | exitBumpAnnounce | lostBumpAnnounce => exact absurd hc' (by simp [callStep])
  | enterStoreLimit | enterStoreDeclared | enterBumpGeneration | enterBumpAnnounce
  | enterClearPackets | exitStoreLimit | exitLoadTotal | exitStoreDeclared | lostClearSlot =>
    rw [← Option.some.inj hc']
    trivial

theorem notePathJoined_joined (m : Memory) (id : ℕ) (offset : BitVec 64) :
    (m.notePathJoined id offset).joined = if joinedSlots ≤ id ∨ id = 0 then m.joined
      else Function.update m.joined id (saturatingAdd offset 1) := by
  rw [Memory.notePathJoined]
  split_ifs
  · rfl
  · rfl

/-! ### Steps -/

theorem start_eq {idle idle' : Idle.State} (h : Idle.step idle (.start t c) = some idle') :
    idle.call t = none ∧ idle' = { idle with call := Function.update idle.call t (some c) } := by
  rw [Idle.step] at h
  split_ifs at h with hstart
  exact ⟨hstart.1, (Option.some.inj h).symm⟩

theorem tracked_init (generation : BitVec 64) (total : ℕ) : Tracked generation (init total) := by
  refine ⟨fun _ => Or.inl rfl, ?_, fun _ => Or.inl rfl, ?_⟩
  · intro w r hr
    exact absurd hr (by simp [init])
  · intro t c hc
    exact absurd hc (by simp [init, Idle.State.afterReset])

theorem kept_init (total : ℕ) : Kept (init total) := by
  refine ⟨?_, ?_, ?_⟩
  · intro w offset hoffset
    exact absurd hoffset (by simp [init, inHand, empty])
  · intro w r hr
    exact absurd hr (by simp [init])
  · intro b hb
    exact absurd hb List.not_mem_nil

theorem Tracked.start (h : Tracked generation s) {idle : Idle.State}
    (hstart : Idle.step s.idle (.start t c) = some idle) (hc : Losing s.memory.joined t c) :
    Tracked generation { s with idle } := by
  obtain ⟨-, rfl⟩ := start_eq hstart
  refine ⟨h.held, h.recorded, h.slot, ?_⟩
  refine (Function.forall_update_iff s.idle.call fun u call => ∀ c', call = some c' →
    Losing s.memory.joined u c').mpr ⟨?_, ?_⟩
  · intro c' hc'
    rw [← Option.some.inj hc']
    exact hc
  · intro u _
    exact h.calls u

/-- The session of the worker is over. -/
theorem Tracked.leave (h : Tracked generation s) (w : ℕ) :
    Tracked generation { s with session := Function.update s.session w {} } := by
  refine ⟨?_, h.recorded, h.slot, h.calls⟩
  refine (Function.forall_update_iff s.session fun u x => Held generation (s.baked u)
    (inHand x)).mpr ⟨Or.inl rfl, ?_⟩
  intro u _
  exact h.held u

theorem Tracked.access (h : Tracked generation s) (hc : s.idle.call t = some c) :
    Tracked generation { s with idle := s.idle.access t c, bumps := s.noteBump generation c } := by
  have hlosing := h.calls t c hc
  refine ⟨h.held, h.recorded, ?_, ?_⟩
  · intro w
    show Slotted ((callStep s.memory c).1.joined w) (s.recorded w)
    rcases callStep_joined hlosing with heq | heq
    · rw [heq]
      exact h.slot w
    · rw [heq]
      by_cases hw : w = t
      · rw [hw, Function.update_self]
        exact Or.inl rfl
      · rw [Function.update_of_ne hw]
        exact h.slot w
  · intro u c' hc'
    show Losing (callStep s.memory c).1.joined u c'
    have hcall : Function.update s.idle.call t (callStep s.memory c).2 u = some c' := hc'
    by_cases hu : u = t
    · rw [hu, Function.update_self] at hcall
      rw [hu]
      exact callStep_losing hlosing hcall
    · rw [Function.update_of_ne hu] at hcall
      -- a call clears the slot of its own worker only
      refine (h.calls u c' hcall).congr ?_
      rcases callStep_joined hlosing with heq | heq
      · rw [heq]
      · rw [heq, Function.update_of_ne hu]

theorem noteRead_of_ne (s : State) (a : Action) {u : ℕ} (hu : u ≠ w) :
    s.noteRead w a u = s.baked u := by
  cases a with
  | readGeneration => exact Function.update_of_ne hu _ _
  | _ => rfl

theorem noteRecord_of_ne (s : State) (a : Action) {u : ℕ} (hu : u ≠ w) :
    s.noteRecord w a u = s.recorded u := by
  cases a with
  | join offset =>
    rw [State.noteRecord]
    split_ifs
    · rfl
    · exact Function.update_of_ne hu _ _
  | _ => rfl

theorem moved_joined_of_ne {a : Action} (h : Moved w generation m x x' m' a) {u : ℕ} (hu : u ≠ w) :
    m'.joined u = m.joined u := by
  cases a with
  | readGeneration => rw [h.2]
  | readOffset =>
    obtain ⟨_, _, _, rfl⟩ := h
    rfl
  | join offset =>
    rw [h.2.2, notePathJoined_joined]
    split_ifs
    · rfl
    · exact Function.update_of_ne hu _ _
  | other => rw [h.2]

/-- Its own hand, record and slot after the step of a session. -/
theorem Tracked.moved (h : Tracked generation s) {a : Action}
    (hmoved : Moved w generation s.memory (s.session w) x' m' a) :
    Held generation (s.noteRead w a w) (inHand x') ∧
      (∀ r, s.noteRecord w a w = some r → r.generation = some (saturatingAdd generation r.baked)) ∧
      Slotted (m'.joined w) (s.noteRecord w a w) := by
  have hheld := h.held w
  cases a with
  | readGeneration =>
    obtain ⟨hhand, rfl⟩ := hmoved
    refine ⟨?_, h.recorded w, h.slot w⟩
    rw [State.noteRead, Function.update_self, hhand]
    exact Or.inr rfl
  | readOffset =>
    obtain ⟨read, hbefore, hhand, rfl⟩ := hmoved
    refine ⟨?_, h.recorded w, h.slot w⟩
    rw [hhand]
    rw [hbefore] at hheld
    rcases hheld with hheld | hheld
    · exact absurd hheld (by simp [empty])
    · exact Or.inr hheld
  | join offset =>
    obtain ⟨hbefore, hhand, rfl⟩ := hmoved
    refine ⟨Or.inl hhand, ?_⟩
    rw [hbefore] at hheld
    have hgeneration : (s.session w).lastSent.map (·.generation)
        = some (saturatingAdd generation (s.baked w)) := by
      rcases hheld with hheld | hheld
      · exact absurd hheld (by simp [empty])
      · exact hheld
    -- the record and the slot are written for the same ids
    rw [State.noteRecord, notePathJoined_joined]
    split_ifs
    · exact ⟨h.recorded w, h.slot w⟩
    · rw [Function.update_self, Function.update_self]
      refine ⟨?_, Or.inr ⟨_, rfl, rfl⟩⟩
      intro r hr
      rw [← Option.some.inj hr]
      exact hgeneration
  | other =>
    obtain ⟨hhand, rfl⟩ := hmoved
    refine ⟨?_, h.recorded w, h.slot w⟩
    rcases hhand with hhand | hhand
    · rw [hhand]
      exact hheld
    · exact Or.inl hhand

theorem Tracked.move (h : Tracked generation s) {a : Action} (hidle : s.idle.call w = none)
    (hmoved : Moved w generation s.memory (s.session w) x' m' a) :
    Tracked generation (s.move w a x' m') := by
  obtain ⟨hheld, hrecorded, hslot⟩ := h.moved hmoved
  refine ⟨?_, ?_, ?_, ?_⟩
  · intro u
    by_cases hu : u = w
    · rw [hu, State.move]
      simp only [Function.update_self]
      exact hheld
    · rw [State.move]
      simp only [Function.update_of_ne hu, noteRead_of_ne s a hu]
      exact h.held u
  · intro u
    by_cases hu : u = w
    · rw [hu]
      exact hrecorded
    · rw [State.move]
      simp only [noteRecord_of_ne s a hu]
      exact h.recorded u
  · intro u
    show Slotted (m'.joined u) (s.noteRecord w a u)
    by_cases hu : u = w
    · rw [hu]
      exact hslot
    · rw [moved_joined_of_ne hmoved hu, noteRecord_of_ne s a hu]
      exact h.slot u
  · -- the worker that moves is in no call
    intro u c hc
    have hu : u ≠ w := by
      rintro rfl
      exact absurd (hidle.symm.trans hc) (by simp)
    exact (h.calls u c hc).congr (moved_joined_of_ne hmoved hu)

theorem Tracked.step (h : Tracked generation s) (hstep : s.step generation e = some s') :
    Tracked generation s' := by
  cases e with
  | enter t keep =>
    obtain ⟨idle, hidle, rfl⟩ := Option.map_eq_some_iff.mp hstep
    exact h.start hidle trivial
  | exit t =>
    obtain ⟨idle, hidle, rfl⟩ := Option.map_eq_some_iff.mp hstep
    exact h.start hidle trivial
  | lost w =>
    rw [State.step] at hstep
    split at hstep
    · obtain ⟨idle, hidle, rfl⟩ := Option.map_eq_some_iff.mp hstep
      exact (h.start hidle rfl).leave w
    · exact absurd hstep (by simp)
  | access t =>
    obtain ⟨c, hc, rfl⟩ := Option.map_eq_some_iff.mp hstep
    exact h.access hc
  | session w l =>
    rw [State.step] at hstep
    split at hstep
    · rename_i hidle
      obtain ⟨r, hr, rfl⟩ := Option.map_eq_some_iff.mp hstep
      exact h.move hidle (sessionStep_moved hr)
    · exact absurd hstep (by simp)

/-! ### Which steps keep the offsets -/

theorem Kept.leave (h : Kept s) (w : ℕ) (idle : Idle.State) :
    Kept { s with idle, session := Function.update s.session w {} } := by
  refine ⟨?_, h.recorded, h.bumps⟩
  refine (Function.forall_update_iff s.session fun u x => ∀ offset,
    (inHand x).offset = some offset → offset = s.baked u).mpr ⟨?_, ?_⟩
  · intro offset hoffset
    exact absurd hoffset (by simp [inHand, empty])
  · intro u _
    exact h.held u

/-- A bump of `note_path_lost` is made from the epoch of the record unless that is the last. -/
theorem bump_iff (h : Tracked generation s) (hkept : Kept s) {current : BitVec 64}
    (hc : s.idle.call t = some (.lostCompareExchange w current))
    (hcurrent : s.memory.genOffset = current) :
    (s.recorded w).bind Record.generation = some (s.memory.generation generation) ↔
      generation ≠ 0 ∨ ∀ r, s.recorded w = some r → r.offset ≠ BitVec.allOnes 64 := by
  -- the slot is not cleared, so it is that of the record
  obtain ⟨rfl, hslot, hne⟩ := h.calls t _ hc
  obtain ⟨r, hr, hjoined⟩ := (h.slot w).resolve_left hne
  have hcarried : (s.recorded w).bind Record.generation
      = some (saturatingAdd generation r.offset) := by
    rw [hr, Option.bind_some, h.recorded w r hr, hkept.recorded w r hr]
  have hnow : s.memory.generation generation
      = saturatingAdd generation (saturatingAdd r.offset 1 - 1) := by
    rw [Memory.generation, hcurrent, hslot, hjoined]
  rw [hcarried, hnow, Option.some_inj, generation_of_slot, hr]
  constructor
  · rintro (hgeneration | hoffset)
    · exact Or.inl hgeneration
    · refine Or.inr ?_
      intro r' hr'
      rw [← Option.some.inj hr']
      exact hoffset
  · rintro (hgeneration | hoffset)
    · exact Or.inl hgeneration
    · exact Or.inr (hoffset r rfl)

theorem access_kept_iff (h : Tracked generation s) (hkept : Kept s) (hc : s.idle.call t = some c) :
    Kept { s with idle := s.idle.access t c, bumps := s.noteBump generation c } ↔
      Undisturbed generation s (.access t) := by
  -- an access that is no successful exchange adds no bump
  by_cases hbump : ∃ w current, c = .lostCompareExchange w current ∧ s.memory.genOffset = current
  · obtain ⟨w, current, rfl, hcurrent⟩ := hbump
    have hiff := bump_iff h hkept hc hcurrent
    constructor
    · intro hkept'
      have hbumps := hkept'.bumps
      simp only [State.noteBump, hcurrent, if_true] at hbumps
      intro w' current' hc' _
      obtain ⟨rfl, rfl⟩ := Call.lostCompareExchange.inj (Option.some.inj (hc.symm.trans hc'))
      exact hiff.mp (hbumps _ List.mem_cons_self)
    · intro hok
      refine ⟨hkept.held, hkept.recorded, ?_⟩
      simp only [State.noteBump, hcurrent, if_true]
      intro b hb
      rcases List.mem_cons.mp hb with rfl | hb
      · exact hiff.mpr (hok w current hc hcurrent)
      · exact hkept.bumps b hb
  · have hsame : s.noteBump generation c = s.bumps := by
      cases c with
      | lostCompareExchange w current =>
        rw [State.noteBump, if_neg]
        intro hcurrent
        exact hbump ⟨w, current, rfl, hcurrent⟩
      | _ => rfl
    constructor
    · intro _ w current hc' hcurrent
      exact absurd ⟨w, current, Option.some.inj (hc.symm.trans hc'), hcurrent⟩ hbump
    · intro _
      rw [hsame]
      exact ⟨hkept.held, hkept.recorded, hkept.bumps⟩

theorem Kept.move (h : Kept s) {a : Action}
    (hhand : ∀ offset, (inHand x').offset = some offset → offset = s.noteRead w a w)
    (hrecord : ∀ r, s.noteRecord w a w = some r → r.offset = r.baked) :
    Kept (s.move w a x' m') := by
  refine ⟨?_, ?_, h.bumps⟩
  · intro u offset hoffset
    by_cases hu : u = w
    · rw [State.move] at hoffset ⊢
      simp only [hu, Function.update_self] at hoffset ⊢
      exact hhand offset hoffset
    · rw [State.move] at hoffset ⊢
      simp only [Function.update_of_ne hu, noteRead_of_ne s a hu] at hoffset ⊢
      exact h.held u offset hoffset
  · intro u
    by_cases hu : u = w
    · rw [hu]
      exact hrecord
    · rw [State.move]
      simp only [noteRecord_of_ne s a hu]
      exact h.recorded u

theorem move_kept_iff (hkept : Kept s)
    (hmoved : Moved w generation s.memory (s.session w) x' m' (action (s.session w) l)) :
    Kept (s.move w (action (s.session w) l) x' m') ↔ Undisturbed generation s (.session w l) := by
  rw [Undisturbed]
  cases ha : action (s.session w) l with
  | readGeneration =>
    rw [ha] at hmoved
    refine ⟨fun _ => by simp, fun _ => hkept.move ?_ (hkept.recorded w)⟩
    intro offset hoffset
    rw [hmoved.1] at hoffset
    exact absurd hoffset (by simp)
  | readOffset =>
    rw [ha] at hmoved
    obtain ⟨read, -, hhand, -⟩ := hmoved
    -- what is in hand now is what the second read has found
    constructor
    · intro hkept' _
      have hoffset := hkept'.held w s.memory.genOffset
      rw [State.move] at hoffset
      simp only [Function.update_self, hhand] at hoffset
      exact hoffset trivial
    · intro hok
      refine hkept.move ?_ (hkept.recorded w)
      intro offset hoffset
      rw [hhand] at hoffset
      rw [← Option.some.inj hoffset]
      exact hok rfl
  | join offset =>
    rw [ha] at hmoved
    obtain ⟨hbefore, hhand, -⟩ := hmoved
    refine ⟨fun _ => by simp, fun _ => hkept.move ?_ ?_⟩
    · intro offset' hoffset
      rw [hhand] at hoffset
      exact absurd hoffset (by simp [empty])
    · intro r hr
      rw [State.noteRecord] at hr
      split_ifs at hr
      · exact hkept.recorded w r hr
      · rw [Function.update_self] at hr
        rw [← Option.some.inj hr]
        refine hkept.held w offset ?_
        rw [hbefore]
  | other =>
    rw [ha] at hmoved
    refine ⟨fun _ => by simp, fun _ => hkept.move ?_ (hkept.recorded w)⟩
    intro offset hoffset
    rcases hmoved.1 with hhand | hhand
    · rw [hhand] at hoffset
      exact hkept.held w offset hoffset
    · rw [hhand] at hoffset
      exact absurd hoffset (by simp [empty])

theorem step_kept_iff (h : Tracked generation s) (hkept : Kept s)
    (hstep : s.step generation e = some s') : Kept s' ↔ Undisturbed generation s e := by
  cases e with
  | enter t keep =>
    obtain ⟨idle, -, rfl⟩ := Option.map_eq_some_iff.mp hstep
    exact ⟨fun _ => trivial, fun _ => ⟨hkept.held, hkept.recorded, hkept.bumps⟩⟩
  | exit t =>
    obtain ⟨idle, -, rfl⟩ := Option.map_eq_some_iff.mp hstep
    exact ⟨fun _ => trivial, fun _ => ⟨hkept.held, hkept.recorded, hkept.bumps⟩⟩
  | lost w =>
    rw [State.step] at hstep
    split at hstep
    · obtain ⟨idle, -, rfl⟩ := Option.map_eq_some_iff.mp hstep
      exact ⟨fun _ => trivial, fun _ => hkept.leave w idle⟩
    · exact absurd hstep (by simp)
  | access t =>
    obtain ⟨c, hc, rfl⟩ := Option.map_eq_some_iff.mp hstep
    exact access_kept_iff h hkept hc
  | session w l =>
    rw [State.step] at hstep
    split at hstep
    · obtain ⟨r, hr, rfl⟩ := Option.map_eq_some_iff.mp hstep
      exact move_kept_iff hkept (sessionStep_moved hr)
    · exact absurd hstep (by simp)

/-- Along every run the offsets are those of the GETCONFs, and a lost path opens a new epoch
only from the generation of the GETCONF recorded for it, exactly when every step is
undisturbed. -/
theorem joined_epoch_iff (generation : BitVec 64) (total : ℕ) (es : List Event) :
    Always (State.step generation) Kept (init total) es ↔
      Admits (State.step generation) (Undisturbed generation) (init total) es := by
  refine always_iff_admits (Q := Tracked generation) ?_ ?_ (tracked_init generation total)
    (kept_init total)
  · intro s e s' h hstep
    exact h.step hstep
  · intro s e s' h hkept hstep
    exact step_kept_iff h hkept hstep

/-! ### A bump between the two reads -/

/-- The first worker builds and sends its GETCONF; the monitor keeps one worker of two, between
the two reads.  The server answers, and the path is lost. -/
def bumpedPayload : List Event :=
  [Event.session 1 .begin, .session 1 .advance, .enter 0 1] ++
    List.replicate 8 (Event.access 0) ++ List.replicate 3 (Event.session 1 .advance) ++
    [Event.session 1 .replyConfig, .session 1 .advance, .session 1 .advance, .lost 1] ++
    List.replicate 6 (Event.access 1)

/-- The GETCONF carried the generation 5 and the current one is 6, but the loss opens a new
epoch. -/
theorem bump_between_reads : ∃ s, run (State.step 5) (init 2) bumpedPayload = some s ∧
    s.bumps = [⟨some ⟨some 5, 0, 1⟩, 6⟩] ∧ s.memory.genOffset = 2 ∧ ¬ Kept s := by
  refine ⟨_, rfl, rfl, rfl, ?_⟩
  intro hkept
  have hbump := hkept.bumps ⟨some ⟨some 5, 0, 1⟩, 6⟩ List.mem_cons_self
  exact absurd hbump (by decide)

end Csqtt.JoinedEpoch
