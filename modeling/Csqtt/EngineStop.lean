/-
Does a stop reach every engine?

`run` publishes its cancel token after the peer is resolved and Auto JS has
bootstrapped, and `csqtt_engine_stop` cancels the token it finds.  An engine that
publishes when the stop has looked is missed, and so is one whose token another
engine has replaced.

* `stop_reaches` — no engine started before a stop runs on after it, and no two run
  at once if each start follows a stop, as long as every publication and every stop
  are `Seen`;
* `swept_iff` — from the stop's look at the slot on, exactly then;
* `stop_during_bootstrap` — a stop that comes while the peer is being resolved.
-/
import Csqtt.EngineProcess

open Transition

namespace Csqtt.EngineProcess

/-- What is remembered of the stops of a run. -/
structure Stops where
  /-- The engines started before the last stop that has looked at the token. -/
  swept : ℕ
  /-- The engines started before the last stop that has returned. -/
  stopped : ℕ
  /-- Each start came when every engine before it had been stopped. -/
  paired : Bool

def Stops.note (s : Process) (l : Stops) : Event → Stops
  | .start _ => { l with paired := l.paired && l.stopped = s.started }
  | .call =>
    match s.caller with
    | .stopCancel => { l with swept := s.started }
    | .stopUnlink => { l with stopped := s.started }
    | _ => l
  | _ => l

def stopStep : Process × Stops → Event → Option (Process × Stops) :=
  recording Process.step Stops.note

/-- No stop has looked at the slot since the start of an engine that publishes, and a
stop finds the token of every engine that runs. -/
def Seen (p : Process × Stops) : Event → Prop
  | .advance e => (p.1.engines e).phase = .bootstrap → p.2.swept ≤ e
  | .call => p.1.caller = .stopCancel →
      ∀ e < p.1.started, (p.1.engines e).Runs → p.1.engineCancel = some e
  | _ => True

instance (p : Process × Stops) : DecidablePred (Seen p)
  | .advance _ => inferInstanceAs (Decidable (_ → _))
  | .call => inferInstanceAs (Decidable (_ → ∀ _ < _, _ → _))
  | .start _ | .stop | .waitReady | .giveUp | .fail _ | .selfCancel _ | .tunconf .. | .writer _
  | .connect _ | .disconnect _ => isTrue trivial

/-- No engine runs that a returned stop should have cancelled, and only one runs if
each start followed a stop. -/
structure Reached (p : Process × Stops) : Prop where
  stopped : ∀ e < p.2.stopped, ¬ (p.1.engines e).Runs
  alone : p.2.paired → ∀ e e', (p.1.engines e).Runs → (p.1.engines e').Runs → e = e'

/-- The same from the moment on when the stop looks at the token. -/
def Swept (p : Process × Stops) : Prop := ∀ e < p.2.swept, ¬ (p.1.engines e).Runs

/-! ### Which engines run -/

theorem runs_setEngine {s : Process} {e i : ℕ} {engine : Engine}
    (h : ((s.setEngine e engine).engines i).Runs) (hruns : engine.Runs → (s.engines e).Runs) :
    (s.engines i).Runs := by
  rw [setEngine_engines] at h
  split_ifs at h with hi
  · exact hi ▸ hruns h
  · exact h

/-- An engine runs because it ran, or because it has just published its token. -/
theorem runs_step {s t : Process} {ev : Event} {i : ℕ} (h : Step s ev t)
    (hi : (t.engines i).Runs) :
    (s.engines i).Runs ∨ ev = .advance i ∧ (s.engines i).phase = .bootstrap := by
  have hdead : ∀ engine : Engine, engine.phase.holdsToken = false → ¬ engine.Runs :=
    fun engine htoken hruns => Bool.false_ne_true (htoken.symm.trans hruns.1)
  have hcancelled : ∀ engine : Engine, ¬ { engine with cancelled := true }.Runs :=
    fun _ hruns => nomatch hruns.2
  cases h with
  | start | stop | waitReady | giveUp | tunconf | connect | disconnect => exact .inl hi
  | call hcall =>
    left
    cases hcall with
    | startSpawn => exact runs_setEngine hi fun hr => absurd hr (hdead _ rfl)
    | stopCancel => exact runs_setEngine hi fun hr => absurd hr (hcancelled _)
    | startUnready | startUnlink | startForget | stopMiss | stopUnready | stopUnlink | waitTun
    | waitPort | waitBridge => exact hi
  | @advance e _ hadvance =>
    cases hadvance with
    | publish hphase =>
      by_cases hie : i = e
      · rw [hie]
        exact .inr ⟨rfl, hphase⟩
      · left
        rw [Process.setPhase, setEngine_engines, if_neg hie] at hi
        exact hi
    | zero hphase | gate hphase | unready hphase | unlink hphase | link hphase | bind hphase
    | ready hphase | listen hphase | leave hphase | ungate hphase | finish hphase =>
      exact .inl (runs_setEngine hi fun hr => ⟨hphase ▸ rfl, hr.2⟩)
  | fail => exact .inl (runs_setEngine hi fun hr => absurd hr (hdead _ rfl))
  | selfCancel => exact .inl (runs_setEngine hi fun hr => absurd hr (hcancelled _))
  | writer hwrite =>
    cases hwrite with
    | unready | unlink => exact .inl (runs_setEngine hi id)

theorem absent_setEngine {s : Process} {e i : ℕ} {engine : Engine}
    (hi : (s.engines i).phase = .absent)
    (he : (s.engines e).phase = .absent → engine.phase = .absent) :
    ((s.setEngine e engine).engines i).phase = .absent := by
  rw [setEngine_engines]
  split_ifs with hie
  · exact he (hie ▸ hi)
  · exact hi

/-- An engine that has not been started stays so until it is. -/
theorem absent_step {s t : Process} {ev : Event} {i : ℕ} (h : Step s ev t)
    (hi : (s.engines i).phase = .absent) (hnew : t.started ≤ i) :
    (t.engines i).phase = .absent := by
  cases h with
  | start | stop | waitReady | giveUp | tunconf | connect | disconnect => exact hi
  | call hcall =>
    cases hcall with
    | startSpawn =>
      have hne : i ≠ s.started := Nat.ne_of_gt hnew
      rw [setEngine_engines, if_neg hne]
      exact hi
    | stopCancel => exact absent_setEngine hi id
    | startUnready | startUnlink | startForget | stopMiss | stopUnready | stopUnlink | waitTun
    | waitPort | waitBridge => exact hi
  | advance hadvance =>
    cases hadvance with
    | publish hphase | zero hphase | gate hphase | unready hphase | unlink hphase | link hphase
    | bind hphase | ready hphase | listen hphase | leave hphase | ungate hphase | finish hphase =>
      exact absent_setEngine hi fun habsent => nomatch hphase.symm.trans habsent
  | fail hphase =>
    refine absent_setEngine hi fun habsent => ?_
    rw [habsent] at hphase
    exact hphase.elim (nomatch ·) (nomatch ·)
  | selfCancel => exact absent_setEngine hi id
  | writer hwrite =>
    cases hwrite with
    | unready | unlink => exact absent_setEngine hi id

/-! ### The invariant -/

def Caller.starts : Caller → Bool
  | .startUnready _ | .startUnlink _ | .startForget _ | .startSpawn _ => true
  | _ => false

/-- The host's calls in their order. -/
structure Watched (p : Process × Stops) : Prop where
  le : p.2.swept ≤ p.1.started
  stopped_le : p.2.stopped ≤ p.2.swept
  stopping : p.1.caller = .stopUnready ∨ p.1.caller = .stopUnlink → p.2.swept = p.1.started
  starting : p.2.paired → p.1.caller.starts → p.2.stopped = p.1.started
  paired : p.2.paired → p.1.started ≤ p.2.stopped + 1
  absent : ∀ e, p.1.started ≤ e → (p.1.engines e).phase = .absent

theorem watched_new : Watched (.new, ⟨0, 0, true⟩) where
  le := Nat.le_refl _
  stopped_le := Nat.le_refl _
  stopping _ := rfl
  starting _ _ := rfl
  paired _ := Nat.zero_le _
  absent _ _ := rfl

theorem note_of_engine {s : Process} {l : Stops} {ev : Event} {e : ℕ} (h : ev.engine = some e) :
    Stops.note s l ev = l := by
  cases ev with
  | start | stop | waitReady | call | giveUp => exact nomatch h
  | advance | fail | selfCancel | tunconf | writer | connect | disconnect => rfl

theorem Watched.call {s t : Process} {l : Stops} (h : Watched (s, l)) (hcall : Call s t) :
    Watched (t, Stops.note s l .call) := by
  cases hcall with
  | startUnready hc | startUnlink hc | startForget hc =>
    simp only [Stops.note, hc]
    exact { h with stopping := fun hc => hc.elim (nomatch ·) (nomatch ·),
                   starting := fun hp _ => h.starting hp (by rw [hc]; rfl) }
  | startSpawn hc =>
    simp only [Stops.note, hc]
    have hle : l.swept ≤ s.started := h.le
    exact
      { le := Nat.le_succ_of_le hle
        stopped_le := h.stopped_le
        stopping := fun hc => hc.elim (nomatch ·) (nomatch ·)
        starting := fun _ hc => nomatch hc
        paired := fun hp => by
          have hstopped : l.stopped = s.started := h.starting hp (by rw [hc]; rfl)
          exact Nat.succ_le_succ (Nat.le_of_eq hstopped.symm)
        absent := fun e he => absent_step (.call (.startSpawn hc))
          (h.absent e (Nat.le_of_succ_le he)) he }
  | stopMiss hc =>
    simp only [Stops.note, hc]
    exact { h with le := Nat.le_refl _, stopped_le := Nat.le_trans h.stopped_le h.le,
                   stopping := fun _ => rfl, starting := fun _ hc => nomatch hc }
  | stopCancel hc hslot =>
    simp only [Stops.note, hc]
    exact
      { le := Nat.le_refl _
        stopped_le := Nat.le_trans h.stopped_le h.le
        stopping := fun _ => rfl
        starting := fun _ hc => nomatch hc
        paired := h.paired
        absent := fun e he => absent_step (.call (.stopCancel hc hslot)) (h.absent e he) he }
  | stopUnready hc =>
    simp only [Stops.note, hc]
    exact { h with stopping := fun _ => h.stopping (.inl hc), starting := fun _ hc => nomatch hc }
  | stopUnlink hc =>
    simp only [Stops.note, hc]
    exact { h with stopped_le := Nat.le_of_eq (h.stopping (.inr hc)).symm,
                   stopping := fun hc => hc.elim (nomatch ·) (nomatch ·),
                   paired := fun _ => Nat.le_succ _,
                   starting := fun _ hc => nomatch hc }
  | waitTun hc | waitPort hc | waitBridge hc =>
    simp only [Stops.note, hc]
    refine { h with stopping := fun hc => ?_, starting := fun _ hc => ?_ }
    · simp only at hc
      split_ifs at hc
      · exact hc.elim (nomatch ·) (nomatch ·)
      · exact hc.elim (nomatch ·) (nomatch ·)
    · simp only at hc
      split_ifs at hc
      · exact nomatch hc
      · exact nomatch hc

theorem Watched.step {s t : Process} {l : Stops} {ev : Event} (h : Watched (s, l))
    (hstep : Step s ev t) : Watched (t, Stops.note s l ev) := by
  rcases hev : ev.engine with _ | e
  · cases hstep with
    | call hcall => exact h.call hcall
    | start hidle =>
      refine { h with stopping := fun hc => hc.elim (nomatch ·) (nomatch ·),
                      starting := fun hp _ => ?_, paired := fun hp => ?_ }
      · exact of_decide_eq_true (Bool.and_eq_true_iff.mp hp).2
      · exact h.paired (Bool.and_eq_true_iff.mp hp).1
    | stop | waitReady | giveUp =>
      exact { h with stopping := fun hc => hc.elim (nomatch ·) (nomatch ·),
                     starting := fun _ hc => nomatch hc }
    | advance | fail | selfCancel | tunconf | writer | connect | disconnect => exact nomatch hev
  · obtain ⟨hcaller, hstarted⟩ := hstep.caller_of_engine hev
    rw [note_of_engine hev]
    exact
      { le := hstarted ▸ h.le
        stopped_le := h.stopped_le
        stopping := fun hc => by
          rw [hcaller] at hc
          exact (h.stopping hc).trans hstarted.symm
        starting := fun hp hc => by
          rw [hcaller] at hc
          exact (h.starting hp hc).trans hstarted.symm
        paired := fun hp => hstarted ▸ h.paired hp
        absent := fun e he => absent_step hstep (h.absent e (hstarted ▸ he)) he }

/-- Before its publication nobody can cancel an engine. -/
def Unpublished (s : Process) : Prop :=
  ∀ e, (s.engines e).phase = .absent ∨ (s.engines e).phase = .bootstrap →
    (s.engines e).cancelled = false ∧ s.engineCancel ≠ some e

theorem Unpublished.setEngine {s : Process} {e : ℕ} {engine : Engine} (h : Unpublished s)
    (he : engine.phase = .absent ∨ engine.phase = .bootstrap →
      engine.cancelled = false ∧ s.engineCancel ≠ some e) : Unpublished (s.setEngine e engine) := by
  intro i hi
  rw [setEngine_engines] at hi ⊢
  split_ifs at hi ⊢ with hie
  · exact hie ▸ he hi
  · exact h i hi

theorem Unpublished.step {s t : Process} {ev : Event} (h : Unpublished s)
    (habsent : (s.engines s.started).phase = .absent) (hstep : Step s ev t) : Unpublished t := by
  cases hstep with
  | start | stop | waitReady | giveUp | tunconf | connect | disconnect => exact h
  | call hcall =>
    cases hcall with
    | startSpawn => exact Unpublished.setEngine h fun _ => ⟨rfl, (h _ (.inl habsent)).2⟩
    | stopCancel _ hslot =>
      exact Unpublished.setEngine h fun hphase => absurd hslot (h _ hphase).2
    | startUnready | startUnlink | startForget | stopMiss | stopUnready | stopUnlink | waitTun
    | waitPort | waitBridge => exact h
  | @advance e _ hadvance =>
    cases hadvance with
    | publish hphase =>
      intro i hi
      rw [Process.setPhase, setEngine_engines] at hi ⊢
      split_ifs at hi ⊢ with hie
      · exact hi.elim (nomatch ·) (nomatch ·)
      · exact ⟨(h i hi).1, fun hslot => hie (Option.some.inj hslot).symm⟩
    | zero | gate | unready | unlink | link | bind | ready | listen | leave | ungate | finish =>
      exact Unpublished.setEngine h fun hphase => hphase.elim (nomatch ·) (nomatch ·)
  | fail => exact Unpublished.setEngine h fun hphase => hphase.elim (nomatch ·) (nomatch ·)
  | selfCancel htoken =>
    refine Unpublished.setEngine h fun hphase => ?_
    rcases hphase with hphase | hphase
    · exact absurd htoken (by rw [show _ = _ from hphase]; decide)
    · exact absurd htoken (by rw [show _ = _ from hphase]; decide)
  | @writer e _ hwrite =>
    cases hwrite with
    | unready | unlink => exact Unpublished.setEngine h fun hphase => h e hphase

/-! ### The stop -/

/-- A step that neither publishes a token nor looks at one changes nothing. -/
theorem swept_of_other {s t : Process} {l : Stops} {ev : Event} (hs : Swept (s, l))
    (h : Step s ev t) (hpublish : ∀ e, ev = .advance e → (s.engines e).phase ≠ .bootstrap)
    (hlook : ev = .call → s.caller ≠ .stopCancel) :
    Swept (t, Stops.note s l ev) ∧ Seen (s, l) ev := by
  have hswept : (Stops.note s l ev).swept = l.swept := by
    cases ev with
    | call =>
      have hcaller := hlook rfl
      simp only [Stops.note]
      split
      · next hc => exact absurd hc hcaller
      · rfl
      · rfl
    | _ => rfl
  constructor
  · intro e he hruns
    rcases runs_step h hruns with hold | ⟨hev, hphase⟩
    · exact hs e (hswept ▸ he) hold
    · exact hpublish e hev hphase
  · cases ev with
    | advance e => exact fun hphase => absurd hphase (hpublish e rfl)
    | call => exact fun hcaller => absurd hcaller (hlook rfl)
    | _ => trivial

theorem swept_publish {s : Process} {l : Stops} {e : ℕ} (hu : Unpublished s) (hs : Swept (s, l))
    (hphase : (s.engines e).phase = .bootstrap) :
    Swept ({ s with engineCancel := some e }.setPhase e .published, l) ↔
      Seen (s, l) (.advance e) := by
  constructor
  · intro hswept _
    by_contra hlt
    refine hswept e (Nat.lt_of_not_le hlt) ?_
    rw [Process.setPhase, setEngine_engines, if_pos rfl]
    exact ⟨rfl, (hu e (.inr hphase)).1⟩
  · intro hseen i hi hruns
    rcases runs_step (.advance (.publish hphase)) hruns with hold | ⟨hev, _⟩
    · exact hs i hi hold
    · -- it is the engine itself
      have hie : e = i := Event.advance.inj hev
      exact absurd (hseen hphase) (Nat.not_le_of_gt (hie ▸ hi))

theorem swept_look {s t : Process} {l : Stops} (hw : Watched (s, l))
    (hcaller : s.caller = .stopCancel) (h : Call s t) :
    Swept (t, Stops.note s l .call) ↔ Seen (s, l) .call := by
  have hnote : (Stops.note s l .call).swept = s.started := by
    simp only [Stops.note, hcaller]
  have hstarted : ∀ e, (s.engines e).Runs → e < s.started := by
    intro e hruns
    by_contra hlt
    have habsent := hw.absent e (Nat.le_of_not_lt hlt)
    exact Bool.false_ne_true ((congrArg Phase.holdsToken habsent).symm.trans hruns.1)
  cases h with
  | stopMiss _ hslot =>
    constructor
    · exact fun hswept _ e he hruns => absurd hruns (hswept e (hnote ▸ he))
    · exact fun hseen e _ hruns =>
        nomatch hslot.symm.trans (hseen hcaller e (hstarted e hruns) hruns)
  | @stopCancel i _ hslot =>
    constructor
    · intro hswept _ e he hruns
      by_contra hne
      refine hswept e (hnote ▸ he) ?_
      rw [Process.cancel, setEngine_engines, if_neg fun hei => hne (hslot.trans (congrArg some hei.symm))]
      exact hruns
    · intro hseen e _ hruns
      rw [Process.cancel, setEngine_engines] at hruns
      split_ifs at hruns with hei
      · exact nomatch hruns.2
      · exact hei (Option.some.inj ((hseen hcaller e (hstarted e hruns) hruns).symm.trans hslot))
  | startUnready hc | startUnlink hc | startForget hc | startSpawn hc | stopUnready hc
  | stopUnlink hc | waitTun hc | waitPort hc | waitBridge hc => exact nomatch hcaller.symm.trans hc

/-- Nothing but these two can let an engine slip through. -/
theorem swept_step {s t : Process} {l : Stops} {ev : Event} (hw : Watched (s, l))
    (hu : Unpublished s) (hs : Swept (s, l)) (h : Step s ev t) :
    Swept (t, Stops.note s l ev) ↔ Seen (s, l) ev := by
  by_cases hpublish : ∃ e, ev = .advance e ∧ (s.engines e).phase = .bootstrap
  · obtain ⟨e, rfl, hphase⟩ := hpublish
    cases h with
    | advance h =>
      cases h with
      | publish => exact swept_publish hu hs hphase
      | zero hp | gate hp | unready hp | unlink hp | link hp | bind hp | ready hp | listen hp
      | leave hp | ungate hp | finish hp => exact nomatch hphase.symm.trans hp
  by_cases hlook : ev = .call ∧ s.caller = .stopCancel
  · obtain ⟨rfl, hcaller⟩ := hlook
    cases h with
    | call hcall => exact swept_look hw hcaller hcall
  · obtain ⟨hswept, hseen⟩ := swept_of_other hs h (fun e hev hphase => hpublish ⟨e, hev, hphase⟩)
      fun hev hcaller => hlook ⟨hev, hcaller⟩
    exact iff_of_true hswept hseen

/-- The start of a process, where nothing has been stopped. -/
def stopsNew : Process × Stops := (.new, ⟨0, 0, true⟩)

/-- What is known of every state, whatever the stops miss. -/
def Known (p : Process × Stops) : Prop := Watched p ∧ Unpublished p.1

theorem known_new : Known stopsNew := ⟨watched_new, fun _ _ => ⟨rfl, nofun⟩⟩

theorem known_step {p q : Process × Stops} {ev : Event} (h : Known p)
    (hstep : stopStep p ev = some q) : Known q := by
  obtain ⟨s, l⟩ := p
  obtain ⟨t, m⟩ := q
  obtain ⟨hstep, rfl⟩ := recording_eq_some.mp hstep
  have hcases := step_cases hstep
  exact ⟨h.1.step hcases, h.2.step (h.1.absent _ (Nat.le_refl _)) hcases⟩

theorem swept_step_iff {p q : Process × Stops} {ev : Event} (h : Known p) (hs : Swept p)
    (hstep : stopStep p ev = some q) : Swept q ↔ Seen p ev := by
  obtain ⟨s, l⟩ := p
  obtain ⟨t, m⟩ := q
  obtain ⟨hstep, rfl⟩ := recording_eq_some.mp hstep
  exact swept_step h.1 h.2 hs (step_cases hstep)

/-- From a stop's look at the token on, the engines before it are cancelled exactly as
long as everything is seen. -/
theorem swept_iff (events : List Event) :
    Always stopStep Swept stopsNew events ↔ Admits stopStep Seen stopsNew events :=
  always_iff_admits (fun _ _ _ h hstep => known_step h hstep)
    (fun _ _ _ h hs hstep => swept_step_iff h hs hstep) known_new
    fun _ he => absurd he (Nat.not_lt_zero _)

theorem Swept.reached {p : Process × Stops} (hs : Swept p) (h : Watched p) : Reached p where
  stopped e he := hs e (Nat.lt_of_lt_of_le he h.stopped_le)
  alone hpaired := by
    -- an engine that runs is younger than the last stop, and there is one at most
    have hlast : ∀ e, (p.1.engines e).Runs → e = p.2.stopped := by
      intro e hruns
      have hlo : ¬ e < p.2.stopped := fun he => hs e (Nat.lt_of_lt_of_le he h.stopped_le) hruns
      have hhi : ¬ p.1.started ≤ e := fun he =>
        Bool.false_ne_true ((congrArg Phase.holdsToken (h.absent e he)).symm.trans hruns.1)
      have hpair := h.paired hpaired
      omega
    exact fun e e' hruns hruns' => (hlast e hruns).trans (hlast e' hruns').symm

/-- **A stop reaches every engine** that publishes in time. -/
theorem stop_reaches (events : List Event) (hseen : Admits stopStep Seen stopsNew events) :
    Always stopStep Reached stopsNew events := by
  have hall : Always stopStep (fun p => Known p ∧ Swept p) stopsNew events :=
    always_of_admits (fun _ _ _ h hok hstep =>
      ⟨known_step h.1 hstep, (swept_step_iff h.1 h.2 hstep).mpr hok⟩)
      ⟨known_new, fun _ he => absurd he (Nat.not_lt_zero _)⟩ hseen
  exact hall.mono fun p h => h.2.reached h.1.1

/-- Each engine publishes before it is stopped. -/
theorem stop_after_publication :
    Always stopStep Reached stopsNew
      (startCall ++ .advance 0 :: stopCall ++ startCall ++ .advance 1 :: stopCall) :=
  stop_reaches _ (by decide)

/-- The stop returns while the peer is being resolved, and another engine starts. -/
theorem stop_during_bootstrap : ¬ ∀ events, Always stopStep Reached stopsNew events := by
  intro hclaim
  obtain ⟨p, hp, hruns⟩ : ∃ p, run stopStep stopsNew
      (startCall ++ stopCall ++ startCall ++ [Event.advance 1, .advance 0]) = some p ∧
        0 < p.2.stopped ∧ (p.1.engines 0).Runs := ⟨_, rfl, by decide⟩
  have hreached := always_iff_prefixes.mp (hclaim _) _ List.prefix_rfl p hp
  exact hreached.stopped 0 hruns.1 hruns.2

end Csqtt.EngineProcess
