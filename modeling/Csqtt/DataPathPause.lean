/-
Does the engine's pause gate follow the guard?

`paused` lives in the guard, the gate in the engine.  A handler changes the one under
the mutex and the other after it; an engine that is started comes with an open gate,
and to an engine that is not there `applyEnginePause` does nothing.

* `pause_follows` — once all handlers are through, the gate of a running engine says
  what the guard says, as long as nobody sets or opens it `OutOfStep`;
* `settled_iff` — what is kept up all along is kept up exactly then;
* `netlost_during_recycle` — the engine that a recycle starts runs on while the guard
  is paused.
-/
import Csqtt.DataPath

open Transition

namespace Csqtt.DataPath

/-- What the goroutine is about to tell the gate. -/
def Thread.pausing : Thread → Option Bool
  | .netlost _ => some true
  | .resumed .. => some false
  | _ => none

/-- The gate of a running engine is closed if and only if the guard is paused, unless
something is under way. -/
def Follows (s : System) : Prop :=
  (∀ t ∈ s.threads, t.pausing = none) → s.shared.recycling = false → s.shared.exiting = false →
    ∀ v, s.shared.engine = .running v → (v ↔ s.shared.paused)

/-- Another goroutine has yet to tell the gate what the guard says. -/
def Told (s : System) (threads : List Thread) : Prop :=
  ∃ t ∈ threads, t.pausing = some s.shared.paused

instance (s : System) (threads : List Thread) : Decidable (Told s threads) :=
  inferInstanceAs (Decidable (∃ t ∈ threads, _))

/-- A running engine is told what the guard says now, and an engine starts unpaused; or
somebody has yet to tell it. -/
def InStep (s : System) : Event → Prop
  | .go i _ => ∀ t ∈ s.threads[i]?, ∀ v ∈ t.pausing, s.shared.engine.isRunning →
      v = s.shared.paused ∨ Told s (s.threads.eraseIdx i)
  | .publish => s.shared.paused = false ∨ Told s s.threads
  | _ => True

instance (s : System) : DecidablePred (InStep s)
  | .go i _ => inferInstanceAs
      (Decidable (∀ t ∈ s.threads[i]?, ∀ v ∈ t.pausing, _ → _ ∨ Told s (s.threads.eraseIdx i)))
  | .publish => inferInstanceAs (Decidable (_ ∨ Told s s.threads))
  | .tick _ | .dial _ | .netlost | .notice _ | .wake | .connect | .die => isTrue trivial

/-- The gate says what the guard says, or somebody has yet to tell it. -/
def Settled (s : System) : Prop :=
  ∀ v, s.shared.engine = .running v → v = s.shared.paused ∨ Told s s.threads

theorem Settled.follows {s : System} (h : Settled s) : Follows s := by
  intro hquiet _ _ v hv
  rcases h v hv with rfl | ⟨t, ht, hpausing⟩
  · exact Iff.rfl
  · exact nomatch (hquiet t ht).symm.trans hpausing

/-! ### What a turn does to the gate -/

variable {hooks : Hooks} {g : Guard} {r : Reply} {t : Thread} {out : Out}

/-- Nothing, a word to the gate, the end of a pause, or the end of an engine. -/
inductive Pauses (g : Guard) (t : Thread) (out : Out) : Prop where
  | keep (hengine : out.shared.engine = g.engine) (hpaused : out.shared.paused = g.paused)
      (ht : t.pausing = none) (hnext : out.next.pausing = none)
  | tell (v : Bool) (ht : t.pausing = some v) (hengine : out.shared.engine = g.engine.setPaused v)
      (hpaused : out.shared.paused = g.paused) (hnext : out.next.pausing = none)
  | unpause (ht : t.pausing = none) (hpaused : out.shared.paused = false)
      (hnext : out.next.pausing = some false)
  | down (ht : t.pausing = none) (hengine : out.shared.engine.isRunning = false)

theorem After.next_pausing (k : After) : k.next.pausing = none := by
  cases k with
  | done | onHandover | probeSucceeded => rfl

theorem Look.pausing {next : Thread} {started : Option Thread}
    (h : Look hooks g r t next started) : t.pausing = none ∧ next.pausing = none := by
  cases h with
  | _ => exact ⟨rfl, rfl⟩

theorem Act.pauses (h : Act hooks g r t out) : Pauses g t out := by
  cases h with
  | look h => exact .keep rfl rfl h.pausing.1 h.pausing.2
  | netlost => exact .tell true rfl rfl rfl rfl
  | @pass _ k => exact .keep rfl rfl rfl k.next_pausing
  | @resumed _ _ _ k => exact .tell false rfl rfl rfl k.next_pausing
  | unpause => exact .unpause rfl rfl rfl
  | @refused gen source =>
    obtain ⟨b, hb⟩ := g.finishRebind_eq gen
    rw [hb]
    exact .keep rfl rfl rfl rfl
  | @finish gen reason =>
    obtain ⟨b, hb⟩ := g.finishRebind_eq gen
    rw [hb]
    rcases reason with _ | reason
    · exact .keep rfl rfl rfl rfl
    · exact .keep rfl rfl rfl rfl
  | stopping | engineStarted => exact .down rfl rfl
  | wakePaused =>
    refine .keep rfl rfl rfl ?_
    show (if hooks.probeFn then Thread.wakeProbing g.pauseGen else .ended).pausing = none
    split_ifs <;> rfl
  | handoverLate | handoverNoted | handoverGap | handoverRebind | recycleLate | recyclePaused
  | recycleBusy | recycleExhausted | recycleStart | engineFailed | ipChanged | rebuilt | finishing
  | replay | failOffline | failOnline | softResume | wakeLate | wakeOnline =>
    exact .keep rfl rfl rfl rfl

theorem Act.started_pausing (h : Act hooks g r t out) {u : Thread} (hu : out.started = some u) :
    u.pausing = none := by
  cases h.forked hu with
  | watchdog | recycle | heal | softResume | probeWait => rfl

theorem Engine.setPaused_eq_running {engine : Engine} {v w : Bool} :
    engine.setPaused v = .running w ↔ engine.isRunning ∧ v = w := by
  cases engine with
  | running => exact ⟨fun h => ⟨rfl, Engine.running.inj h⟩, fun h => congrArg _ h.2⟩
  | stopped | starting => exact ⟨nofun, fun h => nomatch h.1⟩

/-- Who has yet to tell the gate after a turn. -/
theorem told_after {s : System} {i : ℕ} (ht : s.threads[i]? = some t)
    (hact : Act hooks s.shared r t out) (hpaused : out.shared.paused = s.shared.paused)
    (hnext : out.next.pausing = none) :
    Told (s.after i out) (s.after i out).threads ↔ Told s (s.threads.eraseIdx i) := by
  constructor
  · rintro ⟨u, hu, hpausing⟩
    rw [Pool.after_shared, hpaused] at hpausing
    rcases (Pool.mem_after ht).mp hu with rfl | hnew | hold
    · exact nomatch hnext.symm.trans hpausing
    · exact nomatch (hact.started_pausing hnew).symm.trans hpausing
    · exact ⟨u, hold, hpausing⟩
  · rintro ⟨u, hu, hpausing⟩
    exact ⟨u, (Pool.mem_after ht).mpr (.inr (.inr hu)), hpausing.trans (congrArg some hpaused.symm)⟩

theorem Settled.go_iff {s : System} (h : Settled s) {i : ℕ} (ht : s.threads[i]? = some t)
    (hact : Act hooks s.shared r t out) : Settled (s.after i out) ↔ InStep s (.go i r) := by
  have hstep : InStep s (.go i r) ↔ ∀ v ∈ t.pausing, s.shared.engine.isRunning →
      v = s.shared.paused ∨ Told s (s.threads.eraseIdx i) := by
    rw [InStep, ht]
    exact ⟨fun hall => hall t rfl, fun hone u hu => Option.some.inj hu ▸ hone⟩
  have hidle : t.pausing = none → InStep s (.go i r) := by
    intro hnone
    exact hstep.mpr fun v hv => nomatch hnone.symm.trans hv
  cases hact.pauses with
  | keep hengine hpaused htp hnext =>
    refine iff_of_true (fun v hv => ?_) (hidle htp)
    rw [told_after ht hact hpaused hnext]
    rcases h v (hengine.symm.trans hv) with rfl | ⟨u, hu, hpausing⟩
    · exact .inl hpaused.symm
    · -- whoever has yet to tell the gate is another goroutine
      obtain ⟨j, hj⟩ := List.mem_iff_getElem?.mp hu
      refine .inr ⟨u, List.mem_eraseIdx_iff_getElem?.mpr ⟨j, fun hji => ?_, hj⟩, hpausing⟩
      subst hji
      obtain rfl := Option.some.inj (hj.symm.trans ht)
      exact nomatch htp.symm.trans hpausing
  | tell v htp hengine hpaused hnext =>
    have htold := told_after ht hact hpaused hnext
    rw [hstep]
    constructor
    · intro hsettled w hw hrunning
      obtain rfl := Option.some.inj (htp.symm.trans hw)
      have hrun : out.shared.engine = .running v :=
        hengine.trans (Engine.setPaused_eq_running.mpr ⟨hrunning, rfl⟩)
      rcases hsettled v hrun with hv | hothers
      · exact .inl (hv.trans hpaused)
      · exact .inr (htold.mp hothers)
    · intro hok w hw
      obtain ⟨hrunning, rfl⟩ := Engine.setPaused_eq_running.mp (hengine.symm.trans hw)
      rcases hok v htp hrunning with hv | hothers
      · exact .inl (hv.trans hpaused.symm)
      · exact .inr (htold.mpr hothers)
  | unpause htp hpaused hnext =>
    refine iff_of_true (fun v _ => .inr ⟨out.next, ?_, ?_⟩) (hidle htp)
    · exact (Pool.mem_after ht).mpr (.inl rfl)
    · rw [hnext, Pool.after_shared, hpaused]
  | down htp hengine =>
    refine iff_of_true (fun v hv => ?_) (hidle htp)
    replace hv : out.shared.engine = .running v := hv
    rw [hv] at hengine
    exact nomatch hengine

/-! ### Over a run -/

/-- A step that changes neither the guard's word nor the engine. -/
theorem Settled.put {s : System} (h : Settled s) {g : Guard} {o : Option Thread}
    (hengine : g.engine = s.shared.engine) (hpaused : g.paused = s.shared.paused) :
    Settled (s.put g o) := by
  intro v hv
  rcases h v (hengine.symm.trans hv) with rfl | ⟨u, hu, hpausing⟩
  · exact .inl hpaused.symm
  · exact .inr ⟨u, Pool.mem_put.mpr (.inl hu), hpausing.trans (congrArg some hpaused.symm)⟩

theorem settled_step {s s' : System} {ev : Event} (h : Settled s) (hs : s.step hooks ev = some s') :
    Settled s' ↔ InStep s ev := by
  cases step_cases hs with
  | @dial ok =>
    obtain ⟨_, _, _, hdial, -⟩ := s.shared.noteDialResult_eq ok
    rw [hdial]
    exact iff_of_true (h.put rfl rfl) trivial
  | tick | notice | wake | connect => exact iff_of_true (h.put rfl rfl) trivial
  | netlost =>
    refine iff_of_true (fun v _ => .inr ⟨_, Pool.mem_put.mpr (.inr rfl), rfl⟩) trivial
  | go ht hout => exact h.go_iff ht (step_act hout)
  | publish hstarting =>
    constructor
    · intro hsettled
      rcases hsettled false rfl with hpaused | ⟨u, hu, hpausing⟩
      · exact .inl hpaused.symm
      · rcases Pool.mem_put.mp hu with hold | hnew
        · exact .inr ⟨u, hold, hpausing⟩
        · exact nomatch hnew
    · intro hok v hv
      obtain rfl : false = v := Engine.running.inj hv
      rcases hok with hpaused | ⟨u, hu, hpausing⟩
      · exact .inl hpaused.symm
      · exact .inr ⟨u, Pool.mem_put.mpr (.inl hu), hpausing⟩
  | die => exact iff_of_true (fun v hv => nomatch hv) trivial

theorem settled_new (tunIP : String) (now : ℕ) : Settled (.new tunIP now) :=
  fun _ hv => .inl (Engine.running.inj hv).symm

/-- The gate is settled exactly as long as it is in step. -/
theorem settled_iff (hooks : Hooks) (tunIP : String) (now : ℕ) (events : List Event) :
    Always (System.step hooks) Settled (.new tunIP now) events ↔
      Admits (System.step hooks) InStep (.new tunIP now) events :=
  always_iff_admits (Q := fun _ => True) (fun _ _ _ _ _ => trivial)
    (fun _ _ _ _ h hs => settled_step h hs) trivial (settled_new tunIP now)

/-- **The pause gate follows the guard** whenever the handlers are through. -/
theorem pause_follows (hooks : Hooks) (tunIP : String) (now : ℕ) (events : List Event)
    (hstep : Admits (System.step hooks) InStep (.new tunIP now) events) :
    Always (System.step hooks) Follows (.new tunIP now) events :=
  ((settled_iff hooks tunIP now events).mpr hstep).mono fun _ => Settled.follows

def fullHooks : Hooks := ⟨true, true, true, true⟩

/-- The network goes, is probed in vain, and comes back. -/
theorem outage_followed :
    Always (System.step fullHooks) Follows (.new "10.66.0.2" 0)
      [.netlost, .go 0 ⟨true, 0, "", 0⟩, .tick (probeDelay 0), .go 1 ⟨true, 0, "", 0⟩,
        .go 1 ⟨false, 0, "", 0⟩, .notice .netback, .go 2 ⟨true, 0, "", 0⟩,
        .go 2 ⟨true, 0, "", 0⟩] :=
  pause_follows fullHooks "10.66.0.2" 0 _ (by decide)

/-- The network goes between `stopFn` and the gate of the next engine, and the recycle
comes through. -/
theorem netlost_during_recycle :
    ¬ ∀ events, Always (System.step fullHooks) Follows (.new "10.66.0.2" 0) events := by
  intro hclaim
  obtain ⟨s, hs, hquiet, hidle, hopen⟩ : ∃ s, run (System.step fullHooks) (.new "10.66.0.2" 0)
      (let no : Reply := ⟨false, 0, "", 0⟩
       let yes : Reply := ⟨true, 0, "10.66.0.2", 0⟩
       Event.connect :: List.replicate 2 (.go 0 no) ++ List.replicate 5 (Event.go 1 no) ++
        List.replicate 2 (Event.go 2 no) ++
        [Event.netlost, .go 3 no, .tick dataPathEngineSettle, .go 2 yes, .publish] ++
        List.replicate 4 (Event.go 2 yes)) = some s ∧
        (∀ t ∈ s.threads, t.pausing = none) ∧
        (s.shared.recycling = false ∧ s.shared.exiting = false) ∧
        s.shared.engine = .running false ∧ s.shared.paused := ⟨_, rfl, by decide⟩
  have hfollows := always_iff_prefixes.mp (hclaim _) _ List.prefix_rfl s hs
  exact nomatch (hfollows hquiet hidle.1 hidle.2 false hopen.1).mpr hopen.2

end Csqtt.DataPath
