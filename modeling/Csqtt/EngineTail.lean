/-
Does the end of an old engine damage the new one?

No slot says which engine it belongs to.  A stopped engine empties the pause gate and
its bridge writer clears the bridge whenever they get to it, its config task stores
the tunnel address until it is aborted, and an engine that was slow to start stores
whatever it has.  The host starts the next engine without waiting for any of this.

* `new_engine_undamaged` — the gate and the bridge of the engine started last stay in
  place, and `csqtt_engine_wait_ready` waits for that engine, as long as the older ones
  keep `Apart`;
* `tail_empties_gate` — an engine that is stopped and empties the gate too late.
-/
import Csqtt.EngineProcess

open Transition

namespace Csqtt.EngineProcess

/-- A start or a stop is under way. -/
def Caller.busy : Caller → Bool
  | .idle | .waitTun | .waitPort | .waitBridge => false
  | _ => true

/-- A start is under way; it has reset `PACKET_PORT`. -/
def Caller.resetPort : Caller → Bool
  | .startUnready _ | .startUnlink _ | .startForget _ | .startSpawn _ => true
  | _ => false

/-- A start has reset `BRIDGE_READY`. -/
def Caller.resetReady : Caller → Bool
  | .startUnlink _ | .startForget _ | .startSpawn _ => true
  | _ => false

/-- A start has reset `TUN_IP`. -/
def Caller.resetIp : Caller → Bool
  | .startSpawn _ => true
  | _ => false

/-- What is remembered of the engine started last.  The first three hold from the
engine's store into a slot to the next start or stop. -/
structure Installs where
  gateHeld : Bool
  linkHeld : Bool
  readyHeld : Bool
  /-- It has received a `TUNCONF`. -/
  configured : Bool
  /-- It has installed its bridge or its port. -/
  installed : Bool
  /-- `csqtt_engine_wait_ready` has returned 0 since the start. -/
  reported : Bool

namespace Installs

/-- The access of the engine's `run`. -/
def noteRun (s : Process) (l : Installs) (e : ℕ) : Installs :=
  match (s.engines e).phase with
  | .zeroed => { l with gateHeld := !s.caller.busy }
  | .cleared =>
    if (s.engines e).mode = .bridge then { l with linkHeld := !s.caller.busy } else l
  | .linked => { l with readyHeld := !s.caller.busy, installed := true }
  | .bound => { l with installed := l.installed || (s.engines e).mode.localPort ≠ 0 }
  | _ => l

def note (s : Process) (l : Installs) : Event → Installs
  | .start _ =>
    { l with gateHeld := false, linkHeld := false, readyHeld := false, reported := false }
  | .stop => { l with gateHeld := false, linkHeld := false, readyHeld := false }
  | .call =>
    match s.caller with
    | .startSpawn _ => { l with configured := false, installed := false }
    | .waitPort => { l with reported := l.reported || s.packetPort ≠ 0 }
    | .waitBridge => { l with reported := l.reported || s.bridgeReady }
    | _ => l
  | .advance e => if e + 1 = s.started then l.noteRun s e else l
  | .tunconf e _ => if e + 1 = s.started then { l with configured := true } else l
  | _ => l

end Installs

def tailStep : Process × Installs → Event → Option (Process × Installs) :=
  recording Process.step Installs.note

/-- The engine started last, which is not being cancelled, finds its gate and its bridge
in their slots, and the host has waited for it. -/
structure Undamaged (p : Process × Installs) : Prop where
  gate : p.2.gateHeld → ∀ e, e + 1 = p.1.started → (p.1.engines e).cancelled = false →
    p.1.enginePause = some e
  bridge : p.2.linkHeld → p.2.readyHeld → ∀ e, e + 1 = p.1.started →
    (p.1.engines e).cancelled = false → p.1.uplink = some e ∧ p.1.bridgeReady
  ready : p.2.reported → p.2.configured ∧ p.2.installed

/-- Older engines do not write a slot that the engine started last has taken, nor store
readiness, a port or an address once its start has reset them. -/
def Apart (p : Process × Installs) : Event → Prop
  | .advance e =>
    match (p.1.engines e).phase with
    | .zeroed | .leaving => p.2.gateHeld → e + 1 = p.1.started
    | .gated => p.2.readyHeld → e + 1 = p.1.started
    | .unready => p.2.linkHeld → e + 1 = p.1.started
    | .cleared => (p.1.engines e).mode = .bridge → p.2.linkHeld → e + 1 = p.1.started
    | .linked => e + 1 = p.1.started ∧ p.1.caller.resetReady = false
    | .bound => (p.1.engines e).mode.localPort ≠ 0 →
        e + 1 = p.1.started ∧ p.1.caller.resetPort = false
    | _ => True
  | .writer e =>
    match (p.1.engines e).writer with
    | .writing => p.2.readyHeld → e + 1 = p.1.started
    | .clearing => p.2.linkHeld → e + 1 = p.1.started
    | _ => True
  | .tunconf e ip => ip ≠ "" → e + 1 = p.1.started ∧ p.1.caller.resetIp = false
  | _ => True

instance (p : Process × Installs) : DecidablePred (Apart p)
  | .advance e => by
    rw [Apart]
    split <;> infer_instance
  | .writer e => by
    rw [Apart]
    split <;> infer_instance
  | .tunconf .. => inferInstanceAs (Decidable (_ → _))
  | .start _ | .stop | .call | .waitReady | .giveUp | .fail _ | .selfCancel _ | .connect _
  | .disconnect _ => isTrue trivial

/-! ### The slots of the new engine -/

/-- The order of the phases. -/
def Phase.rank : Phase → ℕ
  | .absent => 0
  | .bootstrap => 1
  | .published => 2
  | .zeroed => 3
  | .gated => 4
  | .unready => 5
  | .cleared => 6
  | .linked => 7
  | .bound => 8
  | .running => 9
  | .leaving => 10
  | .draining => 11
  | .ended => 12

structure Held (s : Process) (l : Installs) : Prop where
  calm : l.gateHeld ∨ l.linkHeld ∨ l.readyHeld → s.caller.busy = false
  gate : l.gateHeld → ∀ e, e + 1 = s.started → (s.engines e).cancelled = false →
    s.enginePause = some e
  link : l.linkHeld → ∀ e, e + 1 = s.started → 7 ≤ (s.engines e).phase.rank ∧
    ((s.engines e).cancelled = false → s.uplink = some e)
  ready : l.readyHeld → ∀ e, e + 1 = s.started → 8 ≤ (s.engines e).phase.rank ∧
    ((s.engines e).cancelled = false → s.bridgeReady)
  left : ∀ e, (s.engines e).phase = .leaving ∨ (s.engines e).phase = .draining →
    (s.engines e).cancelled
  clearing : ∀ e, (s.engines e).writer = .clearing → (s.engines e).cancelled

/-- A change of one engine that goes on and stays cancelled. -/
theorem Held.setEngine {s : Process} {l : Installs} (h : Held s l) (e : ℕ) (engine : Engine)
    (hrank : (s.engines e).phase.rank ≤ engine.phase.rank)
    (hcancel : engine.cancelled = false → (s.engines e).cancelled = false)
    (hleft : engine.phase = .leaving ∨ engine.phase = .draining → engine.cancelled)
    (hclearing : engine.writer = .clearing → engine.cancelled) : Held (s.setEngine e engine) l where
  calm := h.calm
  gate hheld i hi hc := by
    rw [setEngine_engines] at hc
    split_ifs at hc with hie
    · exact h.gate hheld i hi (hie ▸ hcancel hc)
    · exact h.gate hheld i hi hc
  link hheld i hi := by
    obtain ⟨hr, hu⟩ := h.link hheld i hi
    rw [setEngine_engines]
    split_ifs with hie
    · exact ⟨Nat.le_trans (hie ▸ hr) hrank, fun hc => hu (hie ▸ hcancel hc)⟩
    · exact ⟨hr, hu⟩
  ready hheld i hi := by
    obtain ⟨hr, hu⟩ := h.ready hheld i hi
    rw [setEngine_engines]
    split_ifs with hie
    · exact ⟨Nat.le_trans (hie ▸ hr) hrank, fun hc => hu (hie ▸ hcancel hc)⟩
    · exact ⟨hr, hu⟩
  left i := by
    rw [setEngine_engines]
    split_ifs with hie
    · exact hleft
    · exact h.left i
  clearing i := by
    rw [setEngine_engines]
    split_ifs with hie
    · exact hclearing
    · exact h.clearing i

theorem Held.setPhase {s : Process} {l : Installs} (h : Held s l) {e : ℕ} {old : Phase}
    (hold : (s.engines e).phase = old) (phase : Phase) (hrank : old.rank ≤ phase.rank)
    (hleft : phase = .leaving ∨ phase = .draining → (s.engines e).cancelled) :
    Held (s.setPhase e phase) l :=
  h.setEngine e _ (hold ▸ hrank) id hleft (h.clearing e)

theorem not_left {phase : Phase} (h : phase.rank < 10 ∨ phase.rank = 12) {P : Prop} :
    phase = .leaving ∨ phase = .draining → P := by
  rintro (rfl | rfl)
  · exact absurd h (by decide)
  · exact absurd h (by decide)

theorem newest_unique {s : Process} {e i : ℕ} (he : e + 1 = s.started) (hi : i + 1 = s.started) :
    e = i :=
  Nat.succ.inj (he.trans hi.symm)

theorem Held.advance {s t : Process} {l : Installs} {e : ℕ} (h : Held s l) (hstep : Advance s e t)
    (hapart : Apart (s, l) (.advance e)) : Held t (l.note s (.advance e)) := by
  cases hstep with
  | publish hp =>
    have hset := h.setPhase hp .published (by decide) (not_left (by decide))
    simp only [Installs.note, Installs.noteRun, hp, ite_self]
    exact { hset with }
  | zero hp =>
    have hset := h.setPhase hp .zeroed (by decide) (not_left (by decide))
    simp only [Installs.note, Installs.noteRun, hp, ite_self]
    exact { hset with }
  | gate hp =>
    have hset := h.setPhase hp .gated (by decide) (not_left (by decide))
    simp only [Apart, hp] at hapart
    simp only [Installs.note, Installs.noteRun, hp]
    split_ifs with hnew
    · -- its own gate
      exact { hset with
        calm := fun hheld => hheld.elim (Bool.not_eq_true' _).mp fun hheld => h.calm (.inr hheld)
        gate := fun _ i hi _ => congrArg some (newest_unique hnew hi) }
    · exact { hset with gate := fun hheld => absurd (hapart hheld) hnew }
  | unready hp =>
    have hset := h.setPhase hp .unready (by decide) (not_left (by decide))
    simp only [Apart, hp] at hapart
    simp only [Installs.note, Installs.noteRun, hp, ite_self]
    refine { hset with ready := fun hheld i hi => ?_ }
    -- it has not stored its own readiness yet
    have hrank := (h.ready hheld e (hapart hheld)).1
    rw [hp] at hrank
    exact absurd hrank (by decide)
  | unlink hp =>
    have hset := h.setPhase hp .cleared (by decide) (not_left (by decide))
    simp only [Apart, hp] at hapart
    simp only [Installs.note, Installs.noteRun, hp, ite_self]
    refine { hset with link := fun hheld i hi => ?_ }
    have hrank := (h.link hheld e (hapart hheld)).1
    rw [hp] at hrank
    exact absurd hrank (by decide)
  | link hp hmode =>
    have hset := h.setPhase hp .linked (by decide) (not_left (by decide))
    simp only [Apart, hp] at hapart
    simp only [Installs.note, Installs.noteRun, hp, if_pos hmode]
    split_ifs with hnew
    · -- its own bridge
      refine { hset with calm := fun hheld => ?_, link := fun _ i hi => ?_ }
      · rcases hheld with hheld | hheld | hheld
        · exact h.calm (.inl hheld)
        · exact (Bool.not_eq_true' _).mp hheld
        · exact h.calm (.inr (.inr hheld))
      · rw [← newest_unique hnew hi, Process.setPhase, setEngine_engines, if_pos rfl]
        exact ⟨Nat.le_refl _, fun _ => rfl⟩
    · exact { hset with link := fun hheld => absurd (hapart hmode hheld) hnew }
  | bind hp hmode =>
    have hset := h.setPhase hp .bound (by decide) (not_left (by decide))
    simp only [Installs.note, Installs.noteRun, hp, if_neg hmode, ite_self]
    exact hset
  | ready hp =>
    have hrank : (s.engines e).phase.rank ≤ Phase.rank .bound := by
      rw [hp]
      decide
    have hset := h.setEngine e { s.engines e with phase := .bound, writer := .writing }
      hrank id (fun hleft => hleft.elim (nomatch ·) (nomatch ·)) nofun
    simp only [Installs.note, Installs.noteRun, hp]
    split_ifs with hnew
    · -- its own readiness
      refine { hset with calm := fun hheld => ?_, ready := fun _ i hi => ?_ }
      · rcases hheld with hheld | hheld | hheld
        · exact h.calm (.inl hheld)
        · exact h.calm (.inr (.inl hheld))
        · exact (Bool.not_eq_true' _).mp hheld
      · rw [← newest_unique hnew hi, setEngine_engines, if_pos rfl]
        exact ⟨Nat.le_refl _, fun _ => rfl⟩
    · exact { hset with ready := fun hheld i hi => ⟨(hset.ready hheld i hi).1, fun _ => rfl⟩ }
  | listen hp =>
    have hset := h.setPhase hp .running (by decide) (not_left (by decide))
    simp only [Installs.note, Installs.noteRun, hp]
    split_ifs
    · exact { hset with }
    · exact { hset with }
  | leave hp hcancel =>
    have hset := h.setPhase hp .leaving (by decide) fun _ => hcancel
    simp only [Installs.note, Installs.noteRun, hp, ite_self]
    exact hset
  | ungate hp =>
    have hcancel := h.left e (.inl hp)
    have hset := h.setPhase hp .draining (by decide) fun _ => hcancel
    simp only [Apart, hp] at hapart
    simp only [Installs.note, Installs.noteRun, hp, ite_self]
    refine { hset with gate := fun hheld i hi hc => ?_ }
    -- it is the last engine, and cancelled
    rw [← newest_unique (hapart hheld) hi, Process.setPhase, setEngine_engines, if_pos rfl] at hc
    exact absurd hcancel (Bool.eq_false_iff.mp hc)
  | finish hp =>
    have hset := h.setPhase hp .ended (by decide) (not_left (by decide))
    simp only [Installs.note, Installs.noteRun, hp, ite_self]
    exact hset

theorem Held.write {s t : Process} {l : Installs} {e : ℕ} (h : Held s l) (hstep : Write s e t)
    (hapart : Apart (s, l) (.writer e)) : Held t l := by
  -- if it is the last engine's writer, that engine is cancelled
  have hown : ∀ {i : ℕ} {writer : Writer}, (s.engines e).cancelled → e + 1 = s.started →
      i + 1 = s.started → ((s.setWriter e writer).engines i).cancelled = false → False := by
    intro i writer hcancel hnew hi hc
    rw [← newest_unique hnew hi, Process.setWriter, setEngine_engines, if_pos rfl] at hc
    exact absurd hcancel (Bool.eq_false_iff.mp hc)
  cases hstep with
  | unready hw hcancel =>
    have hset := h.setEngine e { s.engines e with writer := .clearing } (Nat.le_refl _) id
      (h.left e) fun _ => hcancel
    simp only [Apart, hw] at hapart
    exact { hset with ready := fun hheld i hi =>
      ⟨(hset.ready hheld i hi).1, fun hc => (hown hcancel (hapart hheld) hi hc).elim⟩ }
  | unlink hw =>
    have hset := h.setEngine e { s.engines e with writer := .ended } (Nat.le_refl _) id
      (h.left e) nofun
    simp only [Apart, hw] at hapart
    exact { hset with link := fun hheld i hi =>
      ⟨(hset.link hheld i hi).1, fun hc => (hown (h.clearing e hw) (hapart hheld) hi hc).elim⟩ }

/-- Nothing is held during a start or a stop. -/
theorem Held.of_busy {s t : Process} {l m : Installs} (h : Held s l) (hbusy : s.caller.busy)
    (hgate : m.gateHeld = l.gateHeld) (hlink : m.linkHeld = l.linkHeld)
    (hready : m.readyHeld = l.readyHeld)
    (hleft : ∀ e, (t.engines e).phase = .leaving ∨ (t.engines e).phase = .draining →
      (t.engines e).cancelled)
    (hclearing : ∀ e, (t.engines e).writer = .clearing → (t.engines e).cancelled) : Held t m := by
  have hcalm : ¬ (l.gateHeld ∨ l.linkHeld ∨ l.readyHeld) :=
    fun hheld => Bool.false_ne_true ((h.calm hheld).symm.trans hbusy)
  rw [← hgate, ← hlink, ← hready] at hcalm
  exact
    { calm := fun hheld => absurd hheld hcalm
      gate := fun hheld => absurd (.inl hheld) hcalm
      link := fun hheld => absurd (.inr (.inl hheld)) hcalm
      ready := fun hheld => absurd (.inr (.inr hheld)) hcalm
      left := hleft
      clearing := hclearing }

theorem Held.call {s t : Process} {l : Installs} (h : Held s l) (hstep : Call s t) :
    Held t (l.note s .call) := by
  cases hstep with
  | startUnready hc | startUnlink hc | startForget hc | stopMiss hc | stopUnready hc
  | stopUnlink hc =>
    simp only [Installs.note, hc]
    exact h.of_busy (by rw [hc]; rfl) rfl rfl rfl h.left h.clearing
  | startSpawn hc =>
    simp only [Installs.note, hc]
    refine h.of_busy (by rw [hc]; rfl) rfl rfl rfl (fun e => ?_) fun e => ?_
    · rw [setEngine_engines]
      split_ifs
      · exact fun hleft => hleft.elim (nomatch ·) (nomatch ·)
      · exact h.left e
    · rw [setEngine_engines]
      split_ifs
      · exact nofun
      · exact h.clearing e
  | stopCancel hc hslot =>
    simp only [Installs.note, hc]
    refine h.of_busy (by rw [hc]; rfl) rfl rfl rfl (fun e => ?_) fun e => ?_
    · rw [Process.cancel, setEngine_engines]
      split_ifs
      · exact fun _ => rfl
      · exact h.left e
    · rw [Process.cancel, setEngine_engines]
      split_ifs
      · exact fun _ => rfl
      · exact h.clearing e
  | waitTun hc | waitPort hc | waitBridge hc =>
    simp only [Installs.note, hc]
    refine { h with calm := fun _ => ?_ }
    show Caller.busy (if _ then _ else _) = false
    split_ifs
    · rfl
    · rfl

theorem Held.step {s t : Process} {l : Installs} {ev : Event} (h : Held s l) (hstep : Step s ev t)
    (hapart : Apart (s, l) ev) : Held t (l.note s ev) := by
  cases hstep with
  | start | stop =>
    exact { h with calm := fun hheld => hheld.elim nofun (·.elim nofun nofun), gate := nofun,
                   link := nofun, ready := nofun }
  | waitReady | giveUp => exact { h with calm := fun _ => rfl }
  | call hcall => exact h.call hcall
  | advance hadvance => exact h.advance hadvance hapart
  | writer hwrite => exact h.write hwrite hapart
  | @fail e hphase =>
    have hrank : (s.engines e).phase.rank ≤ Phase.rank .ended := by
      rcases hphase with hphase | hphase
      · rw [hphase]
        decide
      · rw [hphase]
        decide
    exact h.setEngine e { s.engines e with phase := .ended } hrank id
      (fun hleft => hleft.elim (nomatch ·) (nomatch ·)) (h.clearing e)
  | @selfCancel e =>
    exact h.setEngine e { s.engines e with cancelled := true } (Nat.le_refl _) nofun
      (fun _ => rfl) fun _ => rfl
  | tunconf =>
    simp only [Installs.note]
    split_ifs
    · exact { h with }
    · exact { h with }
  | connect | disconnect => exact { h with }

/-! ### What the host waits for -/

structure Waited (s : Process) (l : Installs) : Prop where
  ip : s.tunIp ≠ "" → l.configured ∧ s.caller.resetIp = false
  port : s.packetPort ≠ 0 → l.installed ∧ s.caller.resetPort = false
  bridge : s.bridgeReady → l.installed ∧ s.caller.resetReady = false
  waiting : s.caller = .waitPort ∨ s.caller = .waitBridge → l.configured
  reported : l.reported → l.configured ∧ l.installed ∧ s.caller.resetPort = false

theorem Waited.advance {s t : Process} {l : Installs} {e : ℕ} (h : Waited s l)
    (hstep : Advance s e t) (hapart : Apart (s, l) (.advance e)) :
    Waited t (l.note s (.advance e)) := by
  cases hstep with
  | publish hp | zero hp | unlink hp | leave hp | ungate hp | finish hp =>
    simp only [Installs.note, Installs.noteRun, hp, ite_self]
    exact { h with }
  | gate hp =>
    simp only [Installs.note, Installs.noteRun, hp]
    split_ifs
    · exact { h with }
    · exact { h with }
  | unready hp =>
    simp only [Installs.note, Installs.noteRun, hp, ite_self]
    exact { h with bridge := nofun }
  | link hp hmode =>
    simp only [Installs.note, Installs.noteRun, hp, if_pos hmode]
    split_ifs
    · exact { h with }
    · exact { h with }
  | bind hp hmode =>
    simp only [Installs.note, Installs.noteRun, hp, if_neg hmode, ite_self]
    exact { h with }
  | ready hp =>
    simp only [Apart, hp] at hapart
    simp only [Installs.note, Installs.noteRun, hp, if_pos hapart.1]
    exact { h with
      port := fun hport => ⟨rfl, (h.port hport).2⟩
      bridge := fun _ => ⟨rfl, hapart.2⟩
      reported := fun hreported => ⟨(h.reported hreported).1, rfl, (h.reported hreported).2.2⟩ }
  | listen hp =>
    simp only [Apart, hp] at hapart
    simp only [Installs.note, Installs.noteRun, hp]
    split_ifs with hnew
    · have hkeep : l.installed → (l.installed || (s.engines e).mode.localPort ≠ 0) :=
        fun hi => Bool.or_eq_true_iff.mpr (.inl hi)
      exact { h with
        port := fun hport =>
          ⟨Bool.or_eq_true_iff.mpr (.inr (decide_eq_true hport)), (hapart hport).2⟩
        bridge := fun hready => ⟨hkeep (h.bridge hready).1, (h.bridge hready).2⟩
        reported := fun hreported => ⟨(h.reported hreported).1, hkeep (h.reported hreported).2.1,
          (h.reported hreported).2.2⟩ }
    · exact { h with port := fun hport => absurd (hapart hport).1 hnew }

/-- The host goes on to a call that has reset nothing. -/
theorem Waited.move {s : Process} {l : Installs} (h : Waited s l) (caller : Caller)
    (hreset : caller.resetPort = false)
    (hwait : caller = .waitPort ∨ caller = .waitBridge → l.configured) :
    Waited { s with caller } l := by
  have hothers : caller.resetReady = false ∧ caller.resetIp = false := by
    cases caller with
    | startUnready | startUnlink | startForget | startSpawn => exact nomatch hreset
    | _ => exact ⟨rfl, rfl⟩
  exact
    { ip := fun hip => ⟨(h.ip hip).1, hothers.2⟩
      port := fun hport => ⟨(h.port hport).1, hreset⟩
      bridge := fun hready => ⟨(h.bridge hready).1, hothers.1⟩
      waiting := hwait
      reported := fun hreported =>
        ⟨(h.reported hreported).1, (h.reported hreported).2.1, hreset⟩ }

theorem Waited.call {s t : Process} {l : Installs} (h : Waited s l) (hstep : Call s t) :
    Waited t (l.note s .call) := by
  cases hstep with
  | startUnready hc =>
    simp only [Installs.note, hc]
    exact
      { ip := fun hip => ⟨(h.ip hip).1, rfl⟩
        port := fun hport => nomatch hc ▸ (h.port hport).2
        bridge := nofun
        waiting := fun hwait => hwait.elim nofun nofun
        reported := fun hreported => nomatch hc ▸ (h.reported hreported).2.2 }
  | startUnlink hc =>
    simp only [Installs.note, hc]
    exact
      { ip := fun hip => ⟨(h.ip hip).1, rfl⟩
        port := fun hport => nomatch hc ▸ (h.port hport).2
        bridge := fun hready => nomatch hc ▸ (h.bridge hready).2
        waiting := fun hwait => hwait.elim nofun nofun
        reported := fun hreported => nomatch hc ▸ (h.reported hreported).2.2 }
  | startForget hc =>
    simp only [Installs.note, hc]
    exact
      { ip := fun hip => absurd rfl hip
        port := fun hport => nomatch hc ▸ (h.port hport).2
        bridge := fun hready => nomatch hc ▸ (h.bridge hready).2
        waiting := fun hwait => hwait.elim nofun nofun
        reported := fun hreported => nomatch hc ▸ (h.reported hreported).2.2 }
  | startSpawn hc =>
    -- all three slots are as the start has left them
    simp only [Installs.note, hc]
    exact
      { ip := fun hip => nomatch hc ▸ (h.ip hip).2
        port := fun hport => nomatch hc ▸ (h.port hport).2
        bridge := fun hready => nomatch hc ▸ (h.bridge hready).2
        waiting := fun hwait => hwait.elim nofun nofun
        reported := fun hreported => nomatch hc ▸ (h.reported hreported).2.2 }
  | stopMiss hc | stopCancel hc =>
    simp only [Installs.note, hc]
    exact { h.move .stopUnready rfl fun hwait => hwait.elim nofun nofun with }
  | stopUnlink hc =>
    simp only [Installs.note, hc]
    exact { h.move .idle rfl fun hwait => hwait.elim nofun nofun with }
  | stopUnready hc =>
    simp only [Installs.note, hc]
    exact { h.move .stopUnlink rfl fun hwait => hwait.elim nofun nofun with
            bridge := nofun }
  | waitTun hc =>
    simp only [Installs.note, hc]
    by_cases hempty : s.tunIp.isEmpty
    · rw [if_pos hempty]
      exact h.move .waitTun rfl fun hwait => hwait.elim nofun nofun
    · rw [if_neg hempty]
      exact h.move .waitPort rfl fun _ => (h.ip fun hip => hempty (String.isEmpty_iff.mpr hip)).1
  | waitPort hc =>
    have hconfigured := h.waiting (.inl hc)
    simp only [Installs.note, hc]
    by_cases hport : s.packetPort = 0
    · rw [if_pos hport, decide_eq_false (not_not_intro hport), Bool.or_false]
      exact h.move .waitBridge rfl fun _ => hconfigured
    · rw [if_neg hport]
      exact { h.move .idle rfl fun _ => hconfigured with
              reported := fun _ => ⟨hconfigured, (h.port hport).1, rfl⟩ }
  | waitBridge hc =>
    have hconfigured := h.waiting (.inr hc)
    simp only [Installs.note, hc]
    by_cases hready : s.bridgeReady
    · rw [if_pos hready]
      exact { h.move .idle rfl fun _ => hconfigured with
              reported := fun _ => ⟨hconfigured, (h.bridge hready).1, rfl⟩ }
    · have hsame : (l.reported || s.bridgeReady) = l.reported := by
        rw [Bool.eq_false_iff.mpr hready, Bool.or_false]
      rw [if_neg hready, hsame]
      exact h.move .waitTun rfl fun hwait => hwait.elim nofun nofun

theorem Waited.step {s t : Process} {l : Installs} {ev : Event} (h : Waited s l)
    (hstep : Step s ev t) (hapart : Apart (s, l) ev) : Waited t (l.note s ev) := by
  cases hstep with
  | start hc =>
    exact { ip := fun hip => ⟨(h.ip hip).1, rfl⟩
            port := fun hport => absurd rfl hport
            bridge := fun hready => ⟨(h.bridge hready).1, rfl⟩
            waiting := fun hwait => hwait.elim nofun nofun
            reported := nofun }
  | stop hc => exact { h.move .stopCancel rfl fun hwait => hwait.elim nofun nofun with }
  | waitReady => exact h.move .waitTun rfl fun hwait => hwait.elim nofun nofun
  | giveUp => exact h.move .idle rfl fun hwait => hwait.elim nofun nofun
  | call hcall => exact h.call hcall
  | advance hadvance => exact h.advance hadvance hapart
  | writer hwrite =>
    cases hwrite with
    | unready => exact { h with bridge := nofun }
    | unlink => exact { h with }
  | @tunconf e ip =>
    simp only [Installs.note]
    split_ifs with hnew
    · exact { h with
        ip := fun hip => ⟨rfl, (hapart hip).2⟩
        waiting := fun _ => rfl
        reported := fun hreported => ⟨rfl, (h.reported hreported).2⟩ }
    · exact { h with ip := fun hip => absurd (hapart hip).1 hnew }
  | fail | selfCancel | connect | disconnect => exact { h with }

/-! ### The new engine -/

def tailNew : Process × Installs := (.new, ⟨false, false, false, false, false, false⟩)

theorem undamaged_of_held {p : Process × Installs} (h : Held p.1 p.2) (hw : Waited p.1 p.2) :
    Undamaged p where
  gate := h.gate
  bridge hlink hready e he hc := ⟨(h.link hlink e he).2 hc, (h.ready hready e he).2 hc⟩
  ready hreported := ⟨(hw.reported hreported).1, (hw.reported hreported).2.1⟩

/-- **The engine started last is left alone** by older ones that keep apart. -/
theorem new_engine_undamaged (events : List Event) (hapart : Admits tailStep Apart tailNew events) :
    Always tailStep Undamaged tailNew events := by
  have hall : Always tailStep (fun p => Held p.1 p.2 ∧ Waited p.1 p.2) tailNew events := by
    refine always_of_admits (fun p ev q h hok hstep => ?_) ⟨?_, ?_⟩ hapart
    · obtain ⟨s, l⟩ := p
      obtain ⟨t, m⟩ := q
      obtain ⟨hstep, rfl⟩ := recording_eq_some.mp hstep
      exact ⟨h.1.step (step_cases hstep) hok, h.2.step (step_cases hstep) hok⟩
    · exact ⟨fun _ => rfl, nofun, nofun, nofun, fun _ h => h.elim nofun nofun, nofun⟩
    · exact ⟨fun h => absurd rfl h, fun h => absurd rfl h, nofun, fun h => h.elim nofun nofun, nofun⟩
  exact hall.mono fun p h => undamaged_of_held h.1 h.2

/-- An engine is over before the next one starts, installs its bridge and is waited for. -/
theorem second_engine_undamaged :
    Always tailStep Undamaged tailNew
      (startCall ++ List.replicate 8 (.advance 0) ++ stopCall ++ List.replicate 2 (.advance 0) ++
        List.replicate 2 (.writer 0) ++ [.advance 0] ++ startCall ++
        List.replicate 8 (.advance 1) ++ [.tunconf 1 "10.66.0.2", .waitReady] ++
        List.replicate 3 .call) :=
  new_engine_undamaged _ (by decide)

/-- The stopped engine leaves its loop late, and empties the gate of the next one. -/
theorem tail_empties_gate : ¬ ∀ events, Always tailStep Undamaged tailNew events := by
  intro hclaim
  obtain ⟨p, hp, hheld, hnew, hempty⟩ : ∃ p, run tailStep tailNew
      (startCall ++ List.replicate 8 (Event.advance 0) ++ stopCall ++ startCall ++
        List.replicate 4 (Event.advance 1) ++ List.replicate 2 (Event.advance 0)) = some p ∧
        p.2.gateHeld ∧ (1 + 1 = p.1.started ∧ (p.1.engines 1).cancelled = false) ∧
        p.1.enginePause = none := ⟨_, rfl, by decide⟩
  have hundamaged := always_iff_prefixes.mp (hclaim _) _ List.prefix_rfl p hp
  exact nomatch hempty.symm.trans (hundamaged.gate hheld 1 hnew.1 hnew.2)

end Csqtt.EngineProcess
