/-
Registration: the GETCONF of a session and the announce epoch it waits on.

A session builds its GETCONF from three separate reads of the idle statics
(`build_registration_payload`), sends it, and only after the reply, the dispatcher
registration and the spawning of its tasks captures `ANNOUNCE`; from then on it
re-announces whenever `ANNOUNCE` differs from what it captured.  The sessions
run interleaved with any number of `enter`, `exit` and `note_path_lost` calls.

* `announce_lost_during_handshake` — a bump between the GETCONF and the capture
  is never announced: the session waits with the current epoch and an outdated
  registration;
* `registered_of_announced` — apart from that capture, from a re-announcement
  that could not be sent, and from a full turn of the 64-bit counter, every
  session that waits with the current epoch is registered as the statics say.

The invariant (`KeptUp`) speaks only about moments at which no call still has
its bump of `ANNOUNCE` ahead: all writers of the statics bump last.
-/
import Csqtt.Idle

open Transition

namespace Csqtt.Idle

/-- The call will bump `ANNOUNCE`. -/
def Call.bumpAhead : Call → Bool
  | .enterStoreLimit _ | .enterStoreDeclared _ | .enterBumpGeneration | .enterBumpAnnounce
  | .exitStoreLimit | .exitLoadTotal | .exitStoreDeclared _ | .exitBumpAnnounce
  | .lostClearSlot _ | .lostBumpAnnounce => true
  | _ => false

/-- The call's next access bumps `ANNOUNCE`. -/
def Call.bumps : Call → Bool
  | .enterBumpAnnounce | .exitBumpAnnounce | .lostBumpAnnounce => true
  | _ => false

def BumpAhead (s : State) : Prop := ∃ t, (s.call t).any Call.bumpAhead = true

/-- A call bumps, or its bump is still ahead, or it touches nothing that a
GETCONF is made of. -/
theorem callStep_announce (m : Memory) (c : Call) :
    (c.bumps = true ∧ (callStep m c).1.announce = m.announce + 1) ∨
    (callStep m c).2.any Call.bumpAhead = true ∨
    (c.bumpAhead = false ∧ (callStep m c).1.announce = m.announce ∧
      (callStep m c).1.genOffset = m.genOffset ∧ (callStep m c).1.declared = m.declared ∧
      (callStep m c).1.totalWorkers = m.totalWorkers) := by
  cases c with
  | enterBumpAnnounce | exitBumpAnnounce | lostBumpAnnounce => exact .inl ⟨rfl, rfl⟩
  | enterSwap keep =>
    cases ha : m.active with
    | true => exact .inr (.inr ⟨rfl, rfl, rfl, rfl, rfl⟩)
    | false => exact .inr (.inl (by simp [callStep, ha, Call.bumpAhead]))
  | exitSwap =>
    cases ha : m.active with
    | true => exact .inr (.inl (by simp [callStep, ha, Call.bumpAhead]))
    | false => exact .inr (.inr ⟨rfl, rfl, rfl, rfl, rfl⟩)
  | lostCompareExchange w cur =>
    by_cases h : m.genOffset = cur
    · exact .inr (.inl (by simp [callStep, h, Call.bumpAhead]))
    · exact .inr (.inr (by simp [callStep, h, Call.bumpAhead]))
  | enterLoadTotal keep =>
    refine .inr (.inr ?_)
    simp only [callStep]
    split <;> exact ⟨rfl, rfl, rfl, rfl, rfl⟩
  | enterStoreLimit | enterStoreDeclared | enterBumpGeneration | exitStoreLimit | exitLoadTotal
  | exitStoreDeclared | lostClearSlot => exact .inr (.inl rfl)
  | enterClearPackets | enterClearSyns | lostLoadLimit | lostLoadJoined | lostLoadGeneration =>
    exact .inr (.inr ⟨rfl, rfl, rfl, rfl, rfl⟩)

end Csqtt.Idle

namespace Csqtt.Announce

open Idle (Memory Call callStep)

/-- The part of `SessionConfig` that registration uses. -/
structure SessionConfig where
  id : ℕ
  generation : BitVec 64

/-- The fields of a GETCONF that come from the idle statics. -/
structure Getconf where
  generation : BitVec 64
  desiredCount : ℕ
  deriving DecidableEq, Repr

/-- `build_registration_payload` in progress: the reads it has made so far. -/
inductive Build where
  | readGeneration
  | readOffset (generation : BitVec 64)
  | readDeclared (generation offset : BitVec 64)
  | send (generation offset : BitVec 64) (desiredCount : ℕ)
  deriving DecidableEq, Repr

/-- Where a session stands between its first GETCONF and its end. -/
inductive Phase where
  | idle
  | requesting (attempt : ℕ) (build : Build)
  | awaiting (attempt : ℕ) (offset : BitVec 64)
  | joining (offset : BitVec 64)
  | registered
  | waiting (announceSeen : BitVec 64)
  | changed
  | announcing (announceSeen : BitVec 64) (build : Build)
  | rejoining (announceSeen offset : BitVec 64)
  deriving DecidableEq, Repr

/-- `CONFIG_RESPONSE_TIMEOUT_MS.len()`. -/
def configAttempts : ℕ := 3

inductive SessionLabel where
  | begin
  | advance
  | replyConfig
  | replyNoConfig
  | timeout
  | sendFails
  | announceChanged
  | leave
  deriving DecidableEq, Repr

structure Session where
  phase : Phase := .idle
  /-- Ghost: the last GETCONF this session has sent. -/
  lastSent : Option Getconf := none
  deriving DecidableEq, Repr

/-- The GETCONF that the statics of this moment call for. -/
def current (config : SessionConfig) (m : Memory) : Getconf :=
  ⟨m.generation config.generation, max m.declaredCount 1⟩

/-- The next read of `build_registration_payload`. -/
def Build.read (config : SessionConfig) (m : Memory) : Build → Build
  | .readGeneration => .readOffset (m.generation config.generation)
  | .readOffset g => .readDeclared g m.genOffset
  | .readDeclared g o => .send g o (max m.declaredCount 1)
  | .send g o d => .send g o d

/-- A step of a session that sends nothing and stores nothing. -/
def Session.goto (x : Session) (m : Memory) (phase : Phase) : Option (Session × Memory) :=
  some ({ x with phase }, m)

def sessionStep (config : SessionConfig) (m : Memory) (x : Session) :
    SessionLabel → Option (Session × Memory)
  | .begin =>
    match x.phase with
    | .idle => some (⟨.requesting 0 .readGeneration, none⟩, m)
    | _ => none
  | .advance =>
    match x.phase with
    | .requesting a (.send g o d) => some (⟨.awaiting a o, some ⟨g, d⟩⟩, m)
    | .requesting a build => x.goto m (.requesting a (build.read config m))
    | .joining o => some ({ x with phase := .registered }, m.notePathJoined config.id o)
    | .registered => x.goto m (.waiting m.announce)
    | .changed => x.goto m (.announcing m.announce .readGeneration)
    | .announcing seen (.send g o d) => some (⟨.rejoining seen o, some ⟨g, d⟩⟩, m)
    | .announcing seen build => x.goto m (.announcing seen (build.read config m))
    | .rejoining seen o => some ({ x with phase := .waiting seen }, m.notePathJoined config.id o)
    | _ => none
  | .replyConfig =>
    match x.phase with
    | .awaiting _ o => x.goto m (.joining o)
    | _ => none
  | .replyNoConfig =>
    match x.phase with
    | .awaiting _ _ => x.goto m .registered
    | _ => none
  | .timeout =>
    match x.phase with
    | .awaiting a _ =>
      if a + 1 < configAttempts then x.goto m (.requesting (a + 1) .readGeneration)
      else x.goto m .idle
    | _ => none
  | .sendFails =>
    match x.phase with
    | .requesting _ (.send _ _ _) => x.goto m .idle
    -- the select loop drops the error: `announce_seen` stays where it is
    | .announcing seen (.send _ _ _) => x.goto m (.waiting seen)
    | _ => none
  | .announceChanged =>
    match x.phase with
    | .waiting seen => if m.announce ≠ seen then x.goto m .changed else none
    | _ => none
  | .leave =>
    match x.phase with
    | .idle => none
    | _ => x.goto m .idle

structure State where
  idle : Idle.State
  session : ℕ → Session

def State.memory (s : State) : Memory := s.idle.memory

def State.init (total : ℕ) : State := ⟨Idle.State.afterReset total, fun _ => {}⟩

inductive Label where
  | idle (label : Idle.Label)
  | session (i : ℕ) (label : SessionLabel)
  deriving DecidableEq, Repr

def step (config : ℕ → SessionConfig) (s : State) : Label → Option State
  | .idle l => (Idle.step s.idle l).map fun idle => { s with idle }
  | .session i l =>
    (sessionStep (config i) s.memory (s.session i) l).map fun r =>
      { idle := { s.idle with memory := r.2 }, session := Function.update s.session i r.1 }

/-- With nobody inside a call, a session waits on the current epoch although the
statics call for another GETCONF than the last one it sent. -/
def Outdated (config : ℕ → SessionConfig) (s : State) : Prop :=
  Idle.Quiescent s.idle ∧ ∃ i, (s.session i).phase = .waiting s.memory.announce ∧
    (s.session i).lastSent ≠ some (current (config i) s.memory)

/-! ### Keeping up -/

/-- The session's last GETCONF is the one the statics call for. -/
def UpToDate (config : ℕ → SessionConfig) (s : State) (i : ℕ) : Prop :=
  (s.session i).lastSent = some (current (config i) s.memory)

/-- The epoch a session will wait on, or waits on. -/
def Phase.seen : Phase → Option (BitVec 64)
  | .waiting seen | .announcing seen _ | .rejoining seen _ => some seen
  | _ => none

/-- When `announce_seen` is captured after the handshake, and when a
re-announcement cannot be sent, the last GETCONF is up to date or a bump is
still ahead; and no bump brings `ANNOUNCE` back to an epoch somebody waits on. -/
def Announced (config : ℕ → SessionConfig) (s : State) : Label → Prop
  | .session i .advance =>
    (s.session i).phase = .registered → UpToDate config s i ∨ Idle.BumpAhead s.idle
  | .session i .sendFails =>
    ∀ seen g o d, (s.session i).phase = .announcing seen (.send g o d) →
      seen ≠ s.memory.announce ∨ UpToDate config s i ∨ Idle.BumpAhead s.idle
  | .idle (.advance t) =>
    ∀ c, s.idle.call t = some c → c.bumps = true →
      ∀ i, (s.session i).phase.seen ≠ some (s.memory.announce + 1)
  | _ => True

/-- What a payload under construction has read agrees with the statics. -/
def Build.Fresh (g : Getconf) : Build → Prop
  | .readGeneration => True
  | .readOffset gen | .readDeclared gen _ => gen = g.generation
  | .send gen _ d => gen = g.generation ∧ d = g.desiredCount

def Session.Fresh (x : Session) (g : Getconf) : Prop :=
  match x.phase with
  | .waiting _ | .rejoining _ _ => x.lastSent = some g
  | .announcing _ build => build.Fresh g
  | _ => True

/-- The invariant: once no bump is ahead, a session on the current epoch has
sent, or is about to send, what the statics call for. -/
def KeptUp (config : ℕ → SessionConfig) (s : State) : Prop :=
  ¬ Idle.BumpAhead s.idle → ∀ i, (s.session i).phase.seen = some s.memory.announce →
    (s.session i).Fresh (current (config i) s.memory)

@[simp] theorem notePathJoined_announce (m : Memory) (w : ℕ) (o : BitVec 64) :
    (m.notePathJoined w o).announce = m.announce := by
  unfold Memory.notePathJoined
  split <;> rfl

@[simp] theorem current_notePathJoined (config : SessionConfig) (m : Memory) (w : ℕ)
    (o : BitVec 64) : current config (m.notePathJoined w o) = current config m := by
  unfold Memory.notePathJoined
  split <;> rfl

theorem Build.fresh_read (config : SessionConfig) (m : Memory) {build : Build}
    (h : build.Fresh (current config m)) : (build.read config m).Fresh (current config m) := by
  cases build with
  | readGeneration => rfl
  | readOffset g => exact h
  | readDeclared g o => exact ⟨h, rfl⟩
  | send g o d => exact h

/-- A session stores nothing that a GETCONF or a wait depends on. -/
theorem sessionStep_memory {config : SessionConfig} {m : Memory} {x : Session} {l : SessionLabel}
    {r : Session × Memory} (h : sessionStep config m x l = some r) :
    r.2.announce = m.announce ∧ ∀ cfg, current cfg r.2 = current cfg m := by
  obtain ⟨phase, lastSent⟩ := x
  have same : r.2 = m → r.2.announce = m.announce ∧ ∀ cfg, current cfg r.2 = current cfg m :=
    fun hm => hm ▸ ⟨rfl, fun _ => rfl⟩
  cases l with
  | advance =>
    cases phase with
    | joining o | rejoining seen o =>
      rw [← Option.some_inj.mp h]
      exact ⟨notePathJoined_announce m _ o, fun cfg => current_notePathJoined cfg m _ o⟩
    | requesting a build | announcing seen build =>
      exact same (by cases build <;> (rw [← Option.some_inj.mp h]))
    | registered | changed => exact same (by rw [← Option.some_inj.mp h])
    | idle | awaiting | waiting => cases h
  | timeout =>
    cases phase with
    | awaiting a o =>
      simp only [sessionStep] at h
      split at h <;> exact same (by rw [← Option.some_inj.mp h])
    | _ => cases h
  | announceChanged =>
    cases phase with
    | waiting seen =>
      simp only [sessionStep] at h
      split at h
      · exact same (by rw [← Option.some_inj.mp h])
      · cases h
    | _ => cases h
  | sendFails =>
    cases phase with
    | requesting a build | announcing seen build =>
      cases build with
      | send g o d => exact same (by rw [← Option.some_inj.mp h])
      | _ => cases h
    | _ => cases h
  | begin | replyConfig | replyNoConfig | leave =>
    cases phase <;> first
      | cases h; done
      | exact same (by rw [← Option.some_inj.mp h])

/-- A session that holds the current epoch stays fresh through its own steps, if
it was up to date where it captured the epoch and where a send failed. -/
theorem sessionStep_fresh {config : SessionConfig} {m m' : Memory} {x x' : Session}
    {l : SessionLabel} (h : sessionStep config m x l = some (x', m'))
    (hold : x.phase.seen = some m.announce → x.Fresh (current config m))
    (hcapture : l = .advance → x.phase = .registered → x.lastSent = some (current config m))
    (hfail : l = .sendFails → ∀ seen g o d, x.phase = .announcing seen (.send g o d) →
      seen = m.announce → x.lastSent = some (current config m))
    (hseen : x'.phase.seen = some m.announce) : x'.Fresh (current config m) := by
  obtain ⟨phase, lastSent⟩ := x
  have move : ∀ {y : Session} {p : Phase} {n : Memory},
      y.goto n p = some (x', m') → x' = { y with phase := p } := fun hgo =>
    (Prod.mk.inj (Option.some_inj.mp hgo)).1.symm
  have jump : ∀ {y : Session} {n : Memory}, some (y, n) = some (x', m') → x' = y := fun hgo =>
    (Prod.mk.inj (Option.some_inj.mp hgo)).1.symm
  cases l with
  | advance =>
    cases phase with
    | idle | awaiting | waiting => cases h
    | requesting a build =>
      -- before the registration no epoch is held, so there is nothing to show
      have : x'.phase.seen = none := by cases build <;> (cases h; rfl)
      simp [this] at hseen
    | joining o =>
      rw [jump h] at hseen
      cases hseen
    | registered =>
      rw [move h]
      exact hcapture rfl rfl
    | changed =>
      rw [move h]
      trivial
    | announcing seen build =>
      -- the epoch was held before the step too, so each part read so far is current
      have hx' : x'.phase.seen = some seen := by cases build <;> (cases h; rfl)
      have hfresh : build.Fresh (current config m) := hold (hx'.symm.trans hseen)
      cases build with
      | send g o d =>
        rw [jump h]
        exact congrArg some (congrArg₂ Getconf.mk hfresh.1 hfresh.2)
      | readGeneration | readOffset g | readDeclared g o =>
        rw [move h]
        exact Build.fresh_read config m hfresh
    | rejoining seen o =>
      rw [jump h] at hseen ⊢
      exact hold hseen
  | sendFails =>
    cases phase with
    | announcing seen build =>
      cases build with
      | send g o d =>
        rw [move h] at hseen ⊢
        exact hfail rfl seen g o d rfl (Option.some_inj.mp hseen)
      | readGeneration | readOffset | readDeclared => cases h
    | requesting a build =>
      have : x'.phase.seen = none := by cases build <;> (cases h; try rfl)
      simp [this] at hseen
    | _ => cases h
  | timeout =>
    cases phase with
    | awaiting a o =>
      simp only [sessionStep] at h
      split at h <;> (rw [move h] at hseen; cases hseen)
    | _ => cases h
  | announceChanged =>
    cases phase with
    | waiting seen =>
      simp only [sessionStep] at h
      split at h
      · rw [move h] at hseen
        cases hseen
      · cases h
    | _ => cases h
  | begin =>
    cases phase with
    | idle =>
      rw [jump h] at hseen
      cases hseen
    | _ => cases h
  | replyConfig | replyNoConfig =>
    cases phase with
    | awaiting a o =>
      rw [move h] at hseen
      cases hseen
    | _ => cases h
  | leave =>
    cases phase with
    | idle => cases h
    | requesting | awaiting | joining | registered | waiting | changed | announcing
    | rejoining =>
      rw [move h] at hseen
      cases hseen

/-! ### Runs -/

theorem bumpAhead_update_iff {call : ℕ → Option Call} {t : ℕ} {c : Option Call} :
    (∃ u, (Function.update call t c u).any Call.bumpAhead = true) ↔
      c.any Call.bumpAhead = true ∨ ∃ u, u ≠ t ∧ (call u).any Call.bumpAhead = true := by
  exact Function.exists_update_iff call fun _ c => c.any Call.bumpAhead = true

theorem KeptUp.step_idle {config : ℕ → SessionConfig} {s s' : State} {l : Idle.Label}
    (hkept : KeptUp config s) (hok : Announced config s (.idle l))
    (h : step config s (.idle l) = some s') : KeptUp config s' := by
  obtain ⟨idle', hidle, rfl⟩ := Option.map_eq_some_iff.mp h
  intro hahead
  cases l with
  | start t c =>
    simp only [Idle.step] at hidle
    split at hidle
    case isTrue hstart =>
      cases hidle
      refine hkept ?_
      rintro ⟨u, hu⟩
      refine hahead (bumpAhead_update_iff.mpr (.inr ⟨u, ?_, hu⟩))
      -- the starting thread was in no call before
      rintro rfl
      rw [hstart.1] at hu
      cases hu
    case isFalse => cases hidle
  | advance t =>
    obtain ⟨c, hc, rfl⟩ := Option.map_eq_some_iff.mp hidle
    have hahead' := mt bumpAhead_update_iff.mpr hahead
    rw [not_or] at hahead'
    rcases Idle.callStep_announce s.memory c with ⟨hb, hann⟩ | hnext | ⟨hc', ha, hg, hd, ht⟩
    · -- no session is on the epoch that this bump opens
      intro i hi
      exact absurd (hi.trans (congrArg some hann)) (hok c hc hb i)
    · exact absurd hnext hahead'.1
    · have hcur : ∀ cfg, current cfg (callStep s.memory c).1 = current cfg s.memory := fun cfg => by
        simp only [current, Memory.generation, Memory.declaredCount, hg, hd, ht]
      intro i hi
      show (s.session i).Fresh (current (config i) (callStep s.memory c).1)
      rw [hcur]
      refine hkept ?_ i (hi.trans (congrArg some ha))
      rintro ⟨u, hu⟩
      refine hahead'.2 ⟨u, ?_, hu⟩
      rintro rfl
      rw [hc, Option.any_some, hc'] at hu
      cases hu

theorem KeptUp.step_session {config : ℕ → SessionConfig} {s s' : State} {i : ℕ}
    {l : SessionLabel} (hkept : KeptUp config s) (hok : Announced config s (.session i l))
    (h : step config s (.session i l) = some s') : KeptUp config s' := by
  obtain ⟨⟨x', m'⟩, hx, rfl⟩ := Option.map_eq_some_iff.mp h
  obtain ⟨hann, hcur⟩ := sessionStep_memory hx
  intro hahead j hj
  have hseen : (Function.update s.session i x' j).phase.seen = some s.memory.announce :=
    hj.trans (congrArg some hann)
  show (Function.update s.session i x' j).Fresh (current (config j) m')
  rw [hcur]
  by_cases hji : j = i
  · subst hji
    rw [Function.update_self] at hseen ⊢
    refine sessionStep_fresh hx (hkept hahead j) ?_ ?_ hseen
    · rintro rfl hphase
      exact (hok hphase).resolve_right hahead
    · rintro rfl seen g o d hphase hsn
      exact ((hok seen g o d hphase).resolve_left (not_not_intro hsn)).resolve_right hahead
  · rw [Function.update_of_ne hji] at hseen ⊢
    exact hkept hahead j hseen

theorem not_bumpAhead_of_quiescent {s : Idle.State} (h : Idle.Quiescent s) :
    ¬ Idle.BumpAhead s := by
  rintro ⟨t, ht⟩
  rw [h t] at ht
  cases ht

/-- In every run that meets `Announced`, no session ever waits on the current
epoch with an outdated registration. -/
theorem registered_of_announced (config : ℕ → SessionConfig) (total : ℕ) (labels : List Label)
    (h : Admits (step config) (Announced config) (State.init total) labels) :
    Always (step config) (fun s => ¬ Outdated config s) (State.init total) labels := by
  have hinit : KeptUp config (State.init total) := fun _ i hi => nomatch hi
  refine (always_of_admits (fun s l s' hs hok hl => ?_) hinit h).mono ?_
  · cases l with
    | idle l => exact hs.step_idle hok hl
    | session i l => exact hs.step_session hok hl
  · rintro s hs ⟨hquiet, i, hwait, hlast⟩
    have hfresh := hs (not_bumpAhead_of_quiescent hquiet) i (by rw [hwait]; rfl)
    rw [Session.Fresh, hwait] at hfresh
    exact hlast hfresh

theorem run_idle {config : ℕ → SessionConfig} (labels : List Idle.Label) (s : State) :
    run (step config) s (labels.map .idle) =
      (run Idle.step s.idle labels).map fun idle => { s with idle } := by
  induction labels generalizing s with
  | nil => rfl
  | cons l labels ih =>
    rw [List.map_cons, run_cons, run_cons]
    cases hl : Idle.step s.idle l with
    | none => simp [step, hl]
    | some idle => simp [step, hl, ih]

/-- A GETCONF is built and sent. -/
def request : List Label := .session 0 .begin :: List.replicate 4 (.session 0 .advance)

/-- The reply arrives, and the session registers and captures the epoch. -/
def register : List Label :=
  [.session 0 .replyConfig, .session 0 .advance, .session 0 .advance]

def enterDuringHandshake : List Label :=
  request ++ (Idle.enterAlone 0 2).map .idle ++ register

theorem announce_lost_during_handshake :
    ∃ s, run (step fun i => ⟨i + 1, 5⟩) (State.init 27) enterDuringHandshake = some s ∧
      (s.session 0).phase = .waiting 1 ∧ (s.session 0).lastSent = some ⟨5, 27⟩ ∧
      current ⟨1, 5⟩ s.memory = ⟨6, 2⟩ ∧ Outdated (fun i => ⟨i + 1, 5⟩) s := by
  have hrequest : run (step fun i => ⟨i + 1, 5⟩) (State.init 27) request =
      some ⟨Idle.State.afterReset 27, _⟩ := rfl
  have henter := Idle.run_enter (s := Idle.State.afterReset 27) 0 2 rfl (by decide) (by decide)
    rfl
  rw [enterDuringHandshake, run_append, run_append, hrequest, Option.bind_some, run_idle, henter]
  exact ⟨_, rfl, rfl, rfl, rfl, fun _ => rfl, 0, rfl, by decide⟩

/-- Before any session has captured an epoch, the idle calls are unrestricted. -/
theorem admits_idle {config : ℕ → SessionConfig} (labels : List Idle.Label) {s : State}
    (h : ∀ i, (s.session i).phase.seen = none) :
    Admits (step config) (Announced config) s (labels.map .idle) := by
  induction labels generalizing s with
  | nil => trivial
  | cons l labels ih =>
    intro s' hs'
    obtain ⟨idle, -, rfl⟩ := Option.map_eq_some_iff.mp hs'
    refine ⟨?_, ih h⟩
    cases l with
    | start => trivial
    | advance t =>
      intro c _ _ i hi
      rw [h i] at hi
      cases hi

def enterBeforeHandshake : List Label :=
  (Idle.enterAlone 0 2).map .idle ++ (request ++ register)

theorem registered_enterBeforeHandshake :
    Always (step fun i => ⟨i + 1, 5⟩) (fun s => ¬ Outdated (fun i => ⟨i + 1, 5⟩) s)
      (State.init 27) enterBeforeHandshake := by
  refine registered_of_announced (fun i => ⟨i + 1, 5⟩) 27 enterBeforeHandshake ?_
  have henter := Idle.run_enter (s := Idle.State.afterReset 27) 0 2 rfl (by decide) (by decide)
    rfl
  refine (admits_append ((run_idle _ _).trans (congrArg (Option.map _) henter))).mpr
    ⟨admits_idle _ fun _ => rfl, ?_⟩
  refine (admits_cons rfl).mpr ⟨trivial, ?_⟩
  iterate 4 refine (admits_cons rfl).mpr ⟨nofun, ?_⟩
  refine (admits_cons rfl).mpr ⟨trivial, ?_⟩
  refine (admits_cons rfl).mpr ⟨nofun, ?_⟩
  exact (admits_cons rfl).mpr ⟨fun _ => .inl rfl, trivial⟩

end Csqtt.Announce
