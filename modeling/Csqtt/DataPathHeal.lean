/-
Is a deferred heal ever lost?

What asks for a heal while the guard is paused leaves `pendingRecycle` behind.  Whoever
ends the pause takes it, and hands it from section to section and from goroutine to
goroutine, until a running engine is rebound, a recycle starts, or it is left pending
once more.  On this way two time windows and a few flags can discard it.

* `deferred_heal_kept_iff` — a deferred heal is always pending or in somebody's hands,
  exactly as long as whoever has it is not turned away;
* `stall_discards` — a stall that ends a pause less than 3 s after a rebind.
-/
import Csqtt.DataPath

open Transition

namespace Csqtt.DataPath

/-- What is remembered of the heals that were deferred. -/
structure Debts where
  /-- The goroutines that have one to apply. -/
  owed : List ℕ
  /-- One waits in `pendingHandover` for the end of a recycle. -/
  noted : Bool

/-- What a turn does to the heal that its goroutine has. -/
inductive Fate where
  | kept
  /-- The pause ends, and the pending heal is taken. -/
  | taken
  /-- A running engine is rebound, a recycle starts, or it is pending again. -/
  | done
  /-- It is left in `pendingHandover`. -/
  | noted
  /-- What was left there is taken up. -/
  | replayed
  /-- The recycle that it waited for has failed offline, and leaves another one pending. -/
  | released
  deriving DecidableEq

def Thread.fate (hooks : Hooks) (g : Guard) (out : Out) : Thread → Fate
  | .resume .. => if g.paused && g.pendingRecycle.isSome then .taken else .kept
  | .handover _ => if g.recycling && !g.exiting then .noted else .kept
  | .rebind .. => if hooks.rebindFn && g.engine.isRunning then .done else .kept
  | .recycle _ =>
    if (out.shared.recycling && !g.recycling) || (g.paused && !g.exiting) then .done else .kept
  | .recycling .finishing .. => if g.pendingHandover.isSome then .replayed else .kept
  | .recycling .failing .. => if g.paused then .released else .kept
  | _ => .kept

namespace Debts

def settle (l : Debts) (i : ℕ) : Debts := { l with owed := l.owed.filter (· ≠ i) }

/-- Goroutine `i` has had its turn; what it has started is number `n`. -/
def turn (l : Debts) (n i : ℕ) (out : Out) : Fate → Debts
  | .kept =>
    if out.started.isSome ∧ i ∈ l.owed then { l with owed := n :: (l.settle i).owed } else l
  | .taken => { l with owed := i :: l.owed }
  | .done => l.settle i
  | .noted => ⟨(l.settle i).owed, l.noted || i ∈ l.owed⟩
  | .replayed => if l.noted then ⟨i :: l.owed, false⟩ else l
  | .released => { l with noted := false }

def note (hooks : Hooks) (s : System) (l : Debts) : Event → Debts
  | .go i r =>
    match s.threads[i]? with
    | none => l
    | some t =>
      (t.step hooks s.shared r).elim l fun out =>
        l.turn s.threads.length i out (t.fate hooks s.shared out)
  | _ => l

end Debts

def healStep (hooks : Hooks) : System × Debts → Event → Option (System × Debts) :=
  recording (System.step hooks) (Debts.note hooks)

/-- It is on its way to a rebind, a recycle or `pendingRecycle`. -/
def Thread.carries : Thread → Bool
  | .resume _ k => k ≠ .done
  | .resumed source _ _ k => source = .netback || k ≠ .done
  | .finish _ reason => reason.isSome
  | .handover _ | .rebind .. | .refused .. | .heal _ | .healGap .. | .recycle _ | .watchdog ..
  | .watchSettle .. | .watchLoop .. | .watchPaths .. | .watchEnd .. | .softResume _
  | .softWatch .. | .softPaths _ | .probeResumed .. => true
  | _ => false

/-- Every heal that was taken from `pendingRecycle` and neither applied nor put back is in
the hands of a goroutine, or waits for the end of a recycle. -/
structure Kept (p : System × Debts) : Prop where
  owed : ∀ i ∈ p.2.owed, ∃ t : Thread, p.1.threads[i]? = some t ∧ t.carries
  noted : p.2.noted → p.1.shared.pendingHandover.isSome ∧ p.1.shared.recycling

/-- How far it is at most from a rebind, a recycle or `pendingRecycle`; the watchdog of a
rebind waits for its deadline. -/
def Thread.distance (now : ℕ) : Thread → ℕ
  | .recycle _ => 1
  | .refused .. | .finish .. | .healGap .. | .softPaths _ => 2
  | .watchEnd .. | .softWatch .. => 3
  | .softResume _ => 4
  | .watchLoop _ _ deadline wakeAt => if wakeAt < deadline then 6 + 2 * (deadline - wakeAt) else 4
  | .watchPaths _ _ deadline => 5 + 2 * (deadline - now)
  | .watchSettle .. => 7 + 2 * dataPathRebindWait
  | .watchdog .. => 8 + 2 * dataPathRebindWait
  | .rebind .. => 9 + 2 * dataPathRebindWait
  | .handover _ => 10 + 2 * dataPathRebindWait
  | .resumed _ _ _ (.onHandover _) => 11 + 2 * dataPathRebindWait
  | .resume _ (.onHandover _) => 12 + 2 * dataPathRebindWait
  | .heal _ => 13 + 2 * dataPathRebindWait
  | .resumed _ _ _ .done | .probeResumed .. => 14 + 2 * dataPathRebindWait
  | .resume _ .done | .resumed _ _ _ (.probeSucceeded ..) => 15 + 2 * dataPathRebindWait
  | .resume _ (.probeSucceeded ..) => 16 + 2 * dataPathRebindWait
  | _ => 0

/-- After a turn of who has a heal to apply, who has it then is closer to it. -/
def Closer (hooks : Hooks) (p : System × Debts) (ev : Event) : Prop :=
  ∀ i r q, ev = .go i r → i ∈ p.2.owed → healStep hooks p ev = some q →
    ∀ (j : ℕ) (t u : Thread), p.1.threads[i]? = some t → q.1.threads[j]? = some u →
      j ∈ q.2.owed → j = i ∨ p.1.threads.length ≤ j →
        u.distance q.1.shared.now < t.distance p.1.shared.now

/-- A window, an exit, or a look at the paths that says "no need" meets the goroutine. -/
def Thread.turnedAway (hooks : Hooks) (g : Guard) (r : Reply) : Thread → Bool
  | .heal reason => !reason.retried && g.exiting
  | .healGap _ inFlight => inFlight && (if hooks.activeFn then r.paths else -1) ≤ 0
  | .handover _ =>
    g.exiting || (!g.recycling && within g.lastRebind g.now dataPathRebindMinGap)
  | .recycle _ =>
    g.exiting || (!g.paused && (g.recycling || within g.lastRecycle g.now dataPathRecycleMinGap ||
      dataPathMaxRecycles ≤ g.recycles))
  | .watchdog .. => !hooks.activeFn
  | .watchLoop gen _ deadline _ => g.now < deadline && (g.stale gen || g.recycling)
  | .watchPaths .. => r.paths ≠ 0
  | .watchEnd gen _ => g.stale gen
  | .softWatch _ gen _ =>
    g.exiting || g.paused || g.recycling || g.softResumeGen ≠ gen || !hooks.activeFn
  | .softPaths _ => r.paths ≠ 0
  | _ => false

/-- The recycle ends with an exit. -/
def Thread.quits (g : Guard) : Thread → Bool
  | .recycling .failing .. => !g.paused
  | .recycling .ipChanged .. => true
  | _ => false

/-- Who has a heal to apply is not turned away, and a recycle that one waits for does not
end with an exit. -/
def Received (hooks : Hooks) (p : System × Debts) : Event → Prop
  | .go i r => ∀ t ∈ p.1.threads[i]?,
      (i ∈ p.2.owed → t.turnedAway hooks p.1.shared r = false) ∧
        (p.2.noted → t.quits p.1.shared = false)
  | _ => True

instance (hooks : Hooks) (p : System × Debts) : DecidablePred (Received hooks p)
  | .go i _ => inferInstanceAs (Decidable (∀ t ∈ p.1.threads[i]?, _ ∧ _))
  | .tick _ | .dial _ | .netlost | .notice _ | .wake | .connect | .publish | .die => isTrue trivial

/-! ### What a turn does to a heal -/

/-- Only `netback` has nothing to do after `resumeFromPause`. -/
def After.Regular (source : Reason) : After → Prop
  | .done => source = .netback
  | .onHandover s => source ≠ .netback ∧ s ≠ .netback
  | .probeSucceeded s need reason => source ≠ .netback ∧ s ≠ .netback ∧ (need → reason ≠ .netback)

/-- Nobody heals in the name of `netback`. -/
def Thread.Regular : Thread → Prop
  | .resume source k => k.Regular source
  | .resumed source need reason k => k.Regular source ∧ (need → reason ≠ .netback)
  | .handover source | .rebind _ source | .refused _ source | .probed _ source => source ≠ .netback
  | .heal reason | .healGap reason _ | .recycle reason | .recycling _ reason _ => reason ≠ .netback
  | .finish _ reason => reason ≠ some .netback
  | .probeResumed _ need reason => need → reason ≠ .netback
  | _ => True

variable {hooks : Hooks} {g : Guard} {r : Reply} {t : Thread} {out : Out}

/-- The goroutine goes on with the heal, or has started one that does, unless it is turned
away; or the heal is done with. -/
inductive Goes (hooks : Hooks) (g : Guard) (r : Reply) (t : Thread) (out : Out) : Prop where
  | on (hfate : t.fate hooks g out = .kept) (hstarted : out.started = none)
      (hnext : t.carries → (out.next.carries ↔ t.turnedAway hooks g r = false))
  | moved (hfate : t.fate hooks g out = .kept) (u : Thread) (hstarted : out.started = some u)
      (hu : t.carries → u.carries ∧ t.turnedAway hooks g r = false)
  | taken (hfate : t.fate hooks g out = .taken) (hnext : t.Regular → out.next.carries)
      (hstarted : out.started = none) (hin : t.turnedAway hooks g r = false)
  | done (hfate : t.fate hooks g out = .done) (hin : t.turnedAway hooks g r = false)
  | noted (hfate : t.fate hooks g out = .noted) (hin : t.turnedAway hooks g r = false)
  | replayed (hfate : t.fate hooks g out = .replayed) (hbare : t.carries = false)
      (hnext : out.next.carries) (hin : t.turnedAway hooks g r = false)
  | released (hfate : t.fate hooks g out = .released) (hbare : t.carries = false)
      (hin : t.turnedAway hooks g r = false)

/-- A goroutine with nothing to heal goes on, or starts one with nothing to heal. -/
theorem Goes.of_bare (ht : t.carries = false) (hfate : t.fate hooks g out = .kept) :
    Goes hooks g r t out := by
  rcases hstarted : out.started with _ | u
  · exact .on hfate hstarted fun hcarries => nomatch ht.symm.trans hcarries
  · exact .moved hfate u hstarted fun hcarries => nomatch ht.symm.trans hcarries

/-- A handover is noted during a recycle only. -/
theorem fate_handover {source : Reason} (h : g.recycling = false ∨ g.exiting) :
    (Thread.handover source).fate hooks g out = .kept := by
  show (if g.recycling && !g.exiting then Fate.noted else .kept) = .kept
  rcases h with hrec | hexit
  · rw [hrec]
    rfl
  · rw [hexit, Bool.not_true, Bool.and_false]
    rfl

theorem fate_handover_noted {source : Reason} (hrec : g.recycling) (hexit : g.exiting = false) :
    (Thread.handover source).fate hooks g out = .noted := by
  show (if g.recycling && !g.exiting then Fate.noted else .kept) = .noted
  rw [hrec, hexit]
  rfl

theorem fate_finishing {reason : Reason} {wantIP : String} :
    (Thread.recycling .finishing reason wantIP).fate hooks g out =
      if g.pendingHandover.isSome then .replayed else .kept := rfl

theorem Look.goes {next : Thread} {started : Option Thread}
    (h : Look hooks g r t next started) : Goes hooks g r t ⟨g, next, started⟩ := by
  cases h with
  | @rebound gen source =>
    by_cases hcall : hooks.rebindFn && g.engine.isRunning
    · exact .done (if_pos hcall) rfl
    · exact .moved (if_neg hcall) _ rfl fun _ => ⟨rfl, rfl⟩
  | @refuse gen source =>
    by_cases hcall : hooks.rebindFn && g.engine.isRunning
    · exact .done (if_pos hcall) rfl
    · exact .on (if_neg hcall) rfl fun _ => iff_of_true rfl rfl
  | @healRetried reason h =>
    refine .on rfl rfl fun _ => iff_of_true rfl ?_
    show (!reason.retried && g.exiting) = false
    rw [h, Bool.not_true, Bool.false_and]
  | @healLate reason h hexit =>
    refine .on rfl rfl fun _ => iff_of_false nofun ?_
    show ¬ (!reason.retried && g.exiting) = false
    rw [h, hexit]
    nofun
  | @healRecycle reason hexit | @healGap reason hexit | @healSoft reason hexit =>
    refine .on rfl rfl fun _ => iff_of_true rfl ?_
    show (!reason.retried && g.exiting) = false
    rw [hexit, Bool.and_false]
  | gapWait h =>
    -- left to the watchdog of another rebind
    refine .on rfl rfl fun _ => iff_of_false nofun ?_
    show ¬ (true && decide ((if hooks.activeFn then r.paths else -1) ≤ 0)) = false
    rw [decide_eq_true h]
    nofun
  | @gapRecycle reason inFlight h =>
    refine .on rfl rfl fun _ => iff_of_true rfl ?_
    show (inFlight && decide ((if hooks.activeFn then r.paths else -1) ≤ 0)) = false
    cases inFlight with
    | false => rfl
    | true => rw [decide_eq_false (Int.not_le.mpr (h rfl)), Bool.and_false]
  | @recycling pc _ _ _ h =>
    cases pc with
    | waiting | checkIp | rebuilding | checkPort => exact .of_bare rfl rfl
    | _ => exact nomatch h
  | watchSettle h =>
    refine .on rfl rfl fun _ => iff_of_true rfl ?_
    show (!hooks.activeFn) = false
    rw [h, Bool.not_true]
  | watchBlind h =>
    refine .on rfl rfl fun _ => iff_of_false nofun ?_
    show ¬ (!hooks.activeFn) = false
    rw [h]
    nofun
  | @watchExpired gen deadline wakeAt source htime =>
    refine .on rfl rfl fun _ => iff_of_true rfl ?_
    show (decide (g.now < deadline) && (g.stale gen || g.recycling)) = false
    rw [decide_eq_false (Nat.not_lt.mpr htime), Bool.false_and]
  | @watchStale gen deadline wakeAt source htime h =>
    refine .on rfl rfl fun _ => iff_of_false nofun ?_
    show ¬ (decide (g.now < deadline) && (g.stale gen || g.recycling)) = false
    rw [decide_eq_true htime, h]
    nofun
  | @watchPaths gen deadline wakeAt source hwake htime h =>
    refine .on rfl rfl fun _ => iff_of_true rfl ?_
    show (decide (g.now < deadline) && (g.stale gen || g.recycling)) = false
    rw [h, Bool.and_false]
  -- a path that is up, or not known, counts as healed
  | watchUp h => exact .on rfl rfl fun _ => iff_of_false nofun (by simpa [Thread.turnedAway] using h)
  | watchAgain h => exact .on rfl rfl fun _ => iff_of_true rfl (by simpa [Thread.turnedAway] using h)
  | watchEndStale h =>
    exact .on rfl rfl fun _ => iff_of_false nofun fun hin => nomatch hin.symm.trans h
  | watchEnd h => exact .on rfl rfl fun _ => iff_of_true rfl h
  | softStale h => exact .on rfl rfl fun _ => iff_of_false nofun fun hin => nomatch hin.symm.trans h
  | softPaths h => exact .on rfl rfl fun _ => iff_of_true rfl h
  | softUp h => exact .on rfl rfl fun _ => iff_of_false nofun (by simpa [Thread.turnedAway] using h)
  | softDead h => exact .moved rfl _ rfl fun _ => ⟨rfl, by simpa [Thread.turnedAway] using h⟩
  | watchStart => exact .on rfl rfl fun _ => iff_of_true rfl rfl
  | probeHeal | probeSoft => exact .moved rfl _ rfl fun _ => ⟨rfl, rfl⟩
  | probeStale | probe | probeOk | probeFailed | wakeOk | wakeFailed | probedStale | probed
  | pathRejected | pathWait | pathDead | pathUp => exact .of_bare rfl rfl

theorem After.next_carries {k : After} (h : k ≠ .done) : k.next.carries := by
  cases k with
  | done => exact absurd rfl h
  | onHandover | probeSucceeded => rfl

/-- A goroutine leaves `resumeFromPause`. -/
theorem resumed_goes {source reason : Reason} {need : Bool} {k : After} :
    Goes hooks g r (.resumed source need reason k) (g.afterResume source need reason k) := by
  by_cases hback : source = .netback
  · have hstarted : (g.afterResume source need reason k).started =
        some (if need then .heal reason else .softResume source) := by
      rw [Guard.afterResume, if_neg (not_not_intro hback)]
    refine .moved rfl _ hstarted fun _ => ⟨?_, rfl⟩
    split_ifs <;> rfl
  · have hstarted : (g.afterResume source need reason k).started = none := by
      rw [Guard.afterResume, if_pos hback]
    refine .on rfl hstarted fun hcarries => iff_of_true ?_ rfl
    have hk : k ≠ .done := by
      rw [Thread.carries, decide_eq_false hback, Bool.false_or] at hcarries
      exact of_decide_eq_true hcarries
    exact After.next_carries hk

/-- A recycle is asked for: it starts, or the heal is pending again. -/
theorem recycle_done {reason : Reason}
    (h : (out.shared.recycling && !g.recycling) || (g.paused && !g.exiting))
    (hin : (Thread.recycle reason).turnedAway hooks g r = false) :
    Goes hooks g r (.recycle reason) out :=
  .done (if_pos h) hin

/-- A recycle is asked for in vain. -/
theorem recycle_refused {reason : Reason} (hstarted : out.started = none) (hnext : out.next = .ended)
    (h : ((out.shared.recycling && !g.recycling) || (g.paused && !g.exiting)) = false)
    (hin : (Thread.recycle reason).turnedAway hooks g r) : Goes hooks g r (.recycle reason) out := by
  refine .on (if_neg (Bool.eq_false_iff.mp h)) hstarted fun _ => ?_
  rw [hnext, hin]
  exact iff_of_false nofun nofun

theorem recycle_goes {reason : Reason} (h : Act hooks g r (.recycle reason) out) :
    Goes hooks g r (.recycle reason) out := by
  cases h with
  | recycleLate hexit =>
    refine recycle_refused rfl rfl ?_ ?_
    · rw [Bool.and_not_self, hexit, Bool.not_true, Bool.and_false, Bool.or_false]
    · exact Bool.or_eq_true_iff.mpr (.inl hexit)
  | recyclePaused hexit hpaused =>
    refine recycle_done ?_ ?_
    · rw [hpaused, hexit, Bool.not_false, Bool.and_true, Bool.or_true]
    · show (g.exiting || (!g.paused && _)) = false
      rw [hpaused, hexit]
      rfl
  | recycleBusy hexit hpaused hbusy =>
    refine recycle_refused rfl rfl ?_ ?_
    · rw [Bool.and_not_self, hpaused]
      rfl
    · show (g.exiting || (!g.paused && (g.recycling ||
        within g.lastRecycle g.now dataPathRecycleMinGap || _))) = true
      rw [hexit, hpaused, Bool.or_eq_true_iff.mpr hbusy]
      rfl
  | recycleExhausted hexit hpaused hrec hmax =>
    refine recycle_refused rfl rfl ?_ ?_
    · show ((g.recycling && !g.recycling) || (g.paused && !g.exiting)) = false
      rw [Bool.and_not_self, hpaused]
      rfl
    · show (g.exiting || (!g.paused && (_ || decide (dataPathMaxRecycles ≤ g.recycles)))) = true
      rw [hexit, hpaused, decide_eq_true hmax, Bool.or_true]
      rfl
  | recycleStart hexit hpaused hrec hgap hmax =>
    refine recycle_done ?_ ?_
    · show ((true && !g.recycling) || _) = true
      rw [hrec]
      rfl
    · show (g.exiting || (!g.paused && (g.recycling ||
        within g.lastRecycle g.now dataPathRecycleMinGap ||
          decide (dataPathMaxRecycles ≤ g.recycles)))) = false
      rw [hexit, hpaused, hrec, hgap, decide_eq_false (Nat.not_le.mpr hmax)]
      rfl
  | look h => exact nomatch h

theorem Act.goes (h : Act hooks g r t out) : Goes hooks g r t out := by
  cases h with
  | look h => exact h.goes
  | netlost => exact .of_bare rfl rfl
  | @pass source k hnot =>
    have hfate : (Thread.resume source k).fate hooks g ⟨g, k.next, none⟩ = .kept := by
      show (if g.paused && g.pendingRecycle.isSome then Fate.taken else .kept) = .kept
      rw [hnot]
      rfl
    exact .on hfate rfl fun hcarries => iff_of_true
      (After.next_carries (of_decide_eq_true hcarries)) rfl
  | @unpause source k hpaused =>
    have hnext : Thread.carries (.resume source k) ∨ (Thread.resume source k).Regular →
        (Thread.resumed source g.pendingRecycle.isSome (g.pendingRecycle.getD source) k).carries := by
      intro h
      cases k with
      | done =>
        exact h.elim nofun fun hreg => Bool.or_eq_true_iff.mpr (.inl (decide_eq_true hreg))
      | onHandover | probeSucceeded => exact Bool.or_eq_true_iff.mpr (.inr rfl)
    by_cases hpending : g.pendingRecycle.isSome
    · refine .taken ?_ (fun hreg => hnext (.inr hreg)) rfl rfl
      show (if g.paused && g.pendingRecycle.isSome then Fate.taken else .kept) = .taken
      rw [hpaused, hpending]
      rfl
    · refine .on ?_ rfl fun hcarries => iff_of_true (hnext (.inl hcarries)) rfl
      show (if g.paused && g.pendingRecycle.isSome then Fate.taken else .kept) = .kept
      rw [Bool.eq_false_iff.mpr hpending, Bool.and_false]
      rfl
  | resumed => exact resumed_goes
  | @handoverLate source hexit =>
    refine .on (fate_handover (.inr hexit)) rfl fun _ => iff_of_false nofun ?_
    show ¬ (g.exiting || _) = false
    rw [hexit]
    nofun
  | @handoverNoted source hexit hrec =>
    refine .noted (fate_handover_noted hrec hexit) ?_
    show (g.exiting || (!g.recycling && _)) = false
    rw [hrec, hexit]
    rfl
  | @handoverGap source hexit hrec hgap =>
    -- the dedupe window discards the heal
    refine .on (fate_handover (.inl hrec)) rfl fun _ => iff_of_false nofun ?_
    show ¬ (g.exiting || (!g.recycling && within g.lastRebind g.now dataPathRebindMinGap)) = false
    rw [hrec, hexit, hgap]
    nofun
  | @handoverRebind source hexit hrec hgap =>
    refine .on (fate_handover (.inl hrec)) rfl fun _ => iff_of_true rfl ?_
    show (g.exiting || (!g.recycling && within g.lastRebind g.now dataPathRebindMinGap)) = false
    rw [hrec, hexit, hgap]
    rfl
  | refused => exact .moved rfl _ rfl fun _ => ⟨rfl, rfl⟩
  | @finish gen reason =>
    rcases reason with _ | reason
    · exact .of_bare rfl rfl
    · exact .on rfl rfl fun _ => iff_of_true rfl rfl
  | recycleLate hexit => exact recycle_goes (.recycleLate hexit)
  | recyclePaused hexit hpaused => exact recycle_goes (.recyclePaused hexit hpaused)
  | recycleBusy hexit hpaused hbusy => exact recycle_goes (.recycleBusy hexit hpaused hbusy)
  | recycleExhausted hexit hpaused hrec hmax =>
    exact recycle_goes (.recycleExhausted hexit hpaused hrec hmax)
  | recycleStart hexit hpaused hrec hgap hmax =>
    exact recycle_goes (.recycleStart hexit hpaused hrec hgap hmax)
  | @finishing reason wantIP hnone =>
    refine .of_bare rfl ?_
    rw [fate_finishing, hnone]
    rfl
  | @replay reason source wantIP hnoted =>
    refine .replayed ?_ rfl rfl rfl
    rw [fate_finishing, hnoted]
    rfl
  | failOffline hpaused => exact .released (if_pos hpaused) rfl rfl
  | failOnline hpaused => exact .of_bare rfl (if_neg (Bool.eq_false_iff.mp hpaused))
  | softResume => exact .on rfl rfl fun _ => iff_of_true rfl rfl
  | stopping | engineStarted | engineFailed | ipChanged | rebuilt | wakeLate | wakePaused
  | wakeOnline => exact .of_bare rfl rfl

/-- What a turn does to a heal that waits in `pendingHandover`. -/
inductive Waits (hooks : Hooks) (g : Guard) (t : Thread) (out : Out) : Prop where
  | on (hfate : t.fate hooks g out ≠ .noted ∧ t.fate hooks g out ≠ .replayed ∧
        t.fate hooks g out ≠ .released)
      (hnext : g.pendingHandover.isSome → g.recycling →
        (out.shared.pendingHandover.isSome ∧ out.shared.recycling ↔ t.quits g = false))
  | noted (hfate : t.fate hooks g out = .noted)
      (hnext : out.shared.pendingHandover.isSome ∧ out.shared.recycling) (hin : t.quits g = false)
  | released (hfate : t.fate hooks g out = .replayed ∨ t.fate hooks g out = .released)
      (hin : t.quits g = false) (hnoted : t.fate hooks g out = .replayed → g.pendingHandover.isSome)

theorem Fate.apart_of_kept {fate : Fate} (h : fate = .kept) :
    fate ≠ .noted ∧ fate ≠ .replayed ∧ fate ≠ .released := by
  rw [h]
  exact ⟨nofun, nofun, nofun⟩

theorem Waits.of_same (hfate : t.fate hooks g out = .kept ∨ t.fate hooks g out = .taken ∨
      t.fate hooks g out = .done)
    (hpending : out.shared.pendingHandover = g.pendingHandover)
    (hrec : g.recycling → out.shared.recycling) (hin : t.quits g = false) :
    Waits hooks g t out := by
  refine .on ?_ fun hp hr => iff_of_true ⟨hpending ▸ hp, hrec hr⟩ hin
  rcases hfate with h | h | h
  all_goals
    rw [h]
    exact ⟨nofun, nofun, nofun⟩

theorem Act.waits (h : Act hooks g r t out) : Waits hooks g t out := by
  cases h with
  | look h =>
    cases h with
    | rebound | refuse =>
      refine .of_same ?_ rfl id rfl
      simp only [Thread.fate]
      split_ifs
      · exact .inr (.inr rfl)
      · exact .inl rfl
    | @recycling pc _ _ _ hlook =>
      cases pc with
      | waiting | checkIp | rebuilding | checkPort => exact .of_same (.inl rfl) rfl id rfl
      | _ => exact nomatch hlook
    | _ => exact .of_same (.inl rfl) rfl id rfl
  | pass | unpause =>
    refine .of_same ?_ rfl id rfl
    simp only [Thread.fate]
    split_ifs
    · exact .inr (.inl rfl)
    · exact .inl rfl
  | handoverNoted hexit hrec =>
    exact .noted (fate_handover_noted hrec hexit) ⟨rfl, hrec⟩ rfl
  | handoverLate hexit => exact .of_same (.inl (fate_handover (.inr hexit))) rfl id rfl
  | handoverGap hexit hrec | handoverRebind hexit hrec =>
    exact .of_same (.inl (fate_handover (.inl hrec))) rfl id rfl
  | @refused gen | @finish gen =>
    obtain ⟨b, hb⟩ := g.finishRebind_eq gen
    rw [hb]
    exact .of_same (.inl rfl) rfl id rfl
  | recycleLate | recyclePaused | recycleBusy | recycleExhausted =>
    refine .of_same ?_ rfl id rfl
    simp only [Thread.fate]
    split_ifs
    · exact .inr (.inr rfl)
    · exact .inl rfl
  | recycleStart =>
    refine .of_same ?_ rfl (fun _ => rfl) rfl
    simp only [Thread.fate]
    split_ifs
    · exact .inr (.inr rfl)
    · exact .inl rfl
  | ipChanged =>
    exact .on ⟨nofun, nofun, nofun⟩ fun _ _ => iff_of_false (fun h => nomatch h.2) nofun
  | finishing hnone =>
    refine .on (Fate.apart_of_kept ?_) fun hp _ => nomatch hnone ▸ hp
    rw [fate_finishing, hnone]
    rfl
  | replay hnoted =>
    refine .released (.inl ?_) rfl fun _ => hnoted ▸ rfl
    rw [fate_finishing, hnoted]
    rfl
  | failOffline hpaused =>
    have hfate : ∀ (reason : Reason) (wantIP : String) (out : Out),
        (Thread.recycling .failing reason wantIP).fate hooks g out = .released :=
      fun _ _ _ => if_pos hpaused
    refine .released (.inr (hfate _ _ _)) ?_ fun h => nomatch (hfate _ _ _).symm.trans h
    show (!g.paused) = false
    rw [hpaused, Bool.not_true]
  | failOnline hpaused =>
    refine .on (Fate.apart_of_kept ?_) fun _ _ => iff_of_false (fun h => nomatch h.2) ?_
    · show (if g.paused then Fate.released else .kept) = .kept
      rw [hpaused]
      rfl
    · show ¬ (!g.paused) = false
      rw [hpaused]
      nofun
  | netlost | resumed | stopping | engineStarted | engineFailed | rebuilt | softResume | wakeLate
  | wakePaused | wakeOnline => exact .of_same (.inl rfl) rfl id rfl

/-! ### What a step does to the debts -/

theorem Debts.note_go {s : System} {l : Debts} {i : ℕ} (ht : s.threads[i]? = some t)
    (hout : t.step hooks s.shared r = some out) : l.note hooks s (.go i r) =
      l.turn s.threads.length i out (t.fate hooks s.shared out) := by
  rw [Debts.note, ht]
  show (t.step hooks s.shared r).elim l _ = _
  rw [hout, Option.elim_some]

theorem Debts.mem_settle {l : Debts} {i j : ℕ} : j ∈ (l.settle i).owed ↔ j ∈ l.owed ∧ j ≠ i := by
  rw [Debts.settle, List.mem_filter, decide_eq_true_eq]

/-- Who is not the goroutine that has had its turn goes on as before. -/
theorem Kept.others {p : System × Debts} (h : Kept p) {i j : ℕ} (hj : j ∈ p.2.owed)
    (hij : j ≠ i) : ∃ t : Thread, (p.1.after i out).threads[j]? = some t ∧ t.carries := by
  obtain ⟨u, hu, hcarries⟩ := h.owed j hj
  exact ⟨u, Pool.after_other hu hij, hcarries⟩

/-- Everybody who has a heal after the turn goes on with it, and nobody was turned away. -/
theorem Kept.owed_go {p : System × Debts} (h : Kept p) {i : ℕ} (ht : p.1.threads[i]? = some t)
    (hreg : t.Regular) (hact : Act hooks p.1.shared r t out) :
    (∀ j ∈ (p.2.turn p.1.threads.length i out (t.fate hooks p.1.shared out)).owed,
        ∃ u : Thread, (p.1.after i out).threads[j]? = some u ∧ u.carries) ↔
      (i ∈ p.2.owed → t.turnedAway hooks p.1.shared r = false) := by
  have hself : (p.1.after i out).threads[i]? = some out.next := Pool.after_self ht
  have hcarries : i ∈ p.2.owed → t.carries := by
    intro hi
    obtain ⟨u, hu, hu'⟩ := h.owed i hi
    exact Option.some.inj (hu.symm.trans ht) ▸ hu'
  cases hact.goes with
  | on hfate hstarted hnext =>
    -- the same goroutine has it, if it carries on
    have hsame : p.2.turn p.1.threads.length i out .kept = p.2 := by
      rw [Debts.turn, hstarted]
      exact if_neg fun h => nomatch h.1
    rw [hfate, hsame]
    constructor
    · intro hall hi
      obtain ⟨u, hu, hu'⟩ := hall i hi
      obtain rfl := Option.some.inj (hu.symm.trans hself)
      exact (hnext (hcarries hi)).mp hu'
    · intro hin j hj
      by_cases hij : j = i
      · subst hij
        exact ⟨out.next, hself, (hnext (hcarries hj)).mpr (hin hj)⟩
      · exact h.others hj hij
  | moved hfate u hstarted hu =>
    -- the goroutine that was started has it now
    refine iff_of_true ?_ fun hi => (hu (hcarries hi)).2
    rw [hfate, Debts.turn]
    split_ifs with hmoves
    · intro j hj
      rcases List.mem_cons.mp hj with rfl | hj
      · exact ⟨u, Pool.after_started hstarted, (hu (hcarries hmoves.2)).1⟩
      · obtain ⟨hj, hij⟩ := Debts.mem_settle.mp hj
        exact h.others hj hij
    · intro j hj
      refine h.others hj fun hij => hmoves ⟨?_, hij ▸ hj⟩
      rw [hstarted]
      rfl
  | taken hfate hnext hstarted hin =>
    refine iff_of_true ?_ fun _ => hin
    rw [hfate]
    intro j hj
    by_cases hij : j = i
    · subst hij
      exact ⟨out.next, hself, hnext hreg⟩
    · exact h.others ((List.mem_cons.mp hj).resolve_left hij) hij
  | done hfate hin | noted hfate hin =>
    refine iff_of_true ?_ fun _ => hin
    rw [hfate]
    intro j hj
    obtain ⟨hj, hij⟩ := Debts.mem_settle.mp hj
    exact h.others hj hij
  | replayed hfate hbare hnext hin =>
    refine iff_of_true ?_ fun _ => hin
    rw [hfate, Debts.turn]
    have hall : ∀ j ∈ i :: p.2.owed,
        ∃ u : Thread, (p.1.after i out).threads[j]? = some u ∧ u.carries := by
      intro j hj
      by_cases hij : j = i
      · subst hij
        exact ⟨out.next, hself, hnext⟩
      · exact h.others ((List.mem_cons.mp hj).resolve_left hij) hij
    split_ifs
    · exact hall
    · exact fun j hj => hall j (List.mem_cons_of_mem i hj)
  | released hfate hbare hin =>
    refine iff_of_true ?_ fun _ => hin
    rw [hfate]
    intro j hj
    exact h.others hj fun hij => nomatch hbare.symm.trans (hcarries (hij ▸ hj))

theorem Kept.noted_go {p : System × Debts} (h : Kept p) {i : ℕ}
    (hact : Act hooks p.1.shared r t out) :
    ((p.2.turn p.1.threads.length i out (t.fate hooks p.1.shared out)).noted →
        out.shared.pendingHandover.isSome ∧ out.shared.recycling) ↔
      (p.2.noted → t.quits p.1.shared = false) := by
  cases hact.waits with
  | on hfate hnext =>
    have hsame : (p.2.turn p.1.threads.length i out (t.fate hooks p.1.shared out)).noted =
        p.2.noted := by
      cases hf : t.fate hooks p.1.shared out with
      | kept =>
        rw [Debts.turn]
        split_ifs <;> rfl
      | taken | done => rfl
      | noted => exact absurd hf hfate.1
      | replayed => exact absurd hf hfate.2.1
      | released => exact absurd hf hfate.2.2
    rw [hsame]
    exact forall_congr' fun hnoted => hnext (h.noted hnoted).1 (h.noted hnoted).2
  | noted hfate hnext hin => exact iff_of_true (fun _ => hnext) fun _ => hin
  | released hfate hin hnoted =>
    refine iff_of_true (fun hturn => ?_) fun _ => hin
    have hnone : (p.2.turn p.1.threads.length i out (t.fate hooks p.1.shared out)).noted = false := by
      rcases hfate with hf | hf
      · rw [hf, Debts.turn]
        split_ifs with hn
        · rfl
        · exact Bool.eq_false_iff.mpr hn
      · rw [hf]
        rfl
    exact nomatch hnone.symm.trans hturn

/-- A step that touches neither a heal nor a recycle. -/
theorem Kept.put {p : System × Debts} (h : Kept p) {g : Guard} {o : Option Thread}
    (hpending : g.pendingHandover = p.1.shared.pendingHandover)
    (hrec : g.recycling = p.1.shared.recycling) : Kept (p.1.put g o, p.2) where
  owed i hi := by
    obtain ⟨t, ht, hcarries⟩ := h.owed i hi
    exact ⟨t, Pool.put_old ht, hcarries⟩
  noted hnoted := by
    obtain ⟨hp, hr⟩ := h.noted hnoted
    exact ⟨(congrArg _ hpending).trans hp, hrec.trans hr⟩

structure Regular (s : System) : Prop where
  threads : ∀ t ∈ s.threads, t.Regular
  pendingRecycle : s.shared.pendingRecycle ≠ some .netback
  pendingHandover : s.shared.pendingHandover ≠ some .netback

theorem After.next_regular {source : Reason} {k : After} (h : k.Regular source) :
    k.next.Regular := by
  cases k with
  | done => trivial
  | onHandover => exact h.2
  | probeSucceeded => exact h.2.2

theorem getD_ne_netback {pending : Option Reason} {source : Reason} (h : pending ≠ some .netback) :
    pending.isSome → pending.getD source ≠ .netback := by
  rcases pending with _ | reason
  · exact nofun
  · exact fun _ heq => h (congrArg some heq)

theorem some_getD_ne_netback {pending : Option Reason} {source : Reason}
    (h : pending ≠ some .netback) (hsource : source ≠ .netback) :
    some (pending.getD source) ≠ some .netback := by
  rcases pending with _ | reason
  · exact fun heq => hsource (Option.some.inj heq)
  · exact h

theorem Look.regular {next : Thread} {started : Option Thread} (h : Look hooks g r t next started)
    (ht : t.Regular) (hp : g.pendingRecycle ≠ some .netback) :
    next.Regular ∧ ∀ u, started = some u → u.Regular := by
  cases h with
  | rebound => exact ⟨trivial, fun u hu => Option.some.inj hu ▸ trivial⟩
  | refuse | healRetried | healRecycle | healGap | recycling => exact ⟨ht, nofun⟩
  | healSoft => exact ⟨⟨ht, ht⟩, nofun⟩
  | gapRecycle | probeOk | wakeOk => exact ⟨nofun, nofun⟩
  | watchBlind | watchStale | watchUp | watchEndStale | watchEnd => exact ⟨nofun, nofun⟩
  | softDead | pathDead => exact ⟨trivial, fun u hu => Option.some.inj hu ▸ nofun⟩
  | probed => exact ⟨⟨ht, ht, getD_ne_netback hp⟩, nofun⟩
  | probeHeal => exact ⟨trivial, fun u hu => Option.some.inj hu ▸ ht rfl⟩
  | probeSoft => exact ⟨trivial, fun u hu => Option.some.inj hu ▸ trivial⟩
  | _ => exact ⟨trivial, nofun⟩

theorem regular_of_none (u : Thread) (h : none = some u) : u.Regular := by
  cases h

theorem none_ne_netback : (none : Option Reason) ≠ some .netback := (Option.some_ne_none _).symm

theorem Act.regular (h : Act hooks g r t out) (ht : t.Regular)
    (hp : g.pendingRecycle ≠ some .netback) (hn : g.pendingHandover ≠ some .netback) :
    out.next.Regular ∧ (∀ u, out.started = some u → u.Regular) ∧
      out.shared.pendingRecycle ≠ some .netback ∧ out.shared.pendingHandover ≠ some .netback := by
  cases h with
  | look h =>
    obtain ⟨hnext, hstarted⟩ := h.regular ht hp
    exact ⟨hnext, hstarted, hp, hn⟩
  | netlost =>
    refine ⟨trivial, fun u hu => ?_, hp, hn⟩
    simp only at hu
    split_ifs at hu
    exact Option.some.inj hu ▸ trivial
  | pass => exact ⟨After.next_regular ht, regular_of_none, hp, hn⟩
  | unpause => exact ⟨⟨ht, getD_ne_netback hp⟩, regular_of_none, none_ne_netback, hn⟩
  | @resumed source reason need k =>
    refine ⟨After.next_regular ht.1, fun u hu => ?_, hp, hn⟩
    simp only [Guard.afterResume] at hu
    split_ifs at hu with _ hneed
    · exact Option.some.inj hu ▸ ht.2 hneed
    · exact Option.some.inj hu ▸ trivial
  | handoverNoted => exact ⟨trivial, regular_of_none, hp, some_getD_ne_netback hn ht⟩
  | handoverRebind => exact ⟨ht, regular_of_none, hp, hn⟩
  | refused =>
    obtain ⟨b, hb⟩ := g.finishRebind_eq _
    rw [hb]
    exact ⟨trivial, fun u hu => Option.some.inj hu ▸ ht, hp, hn⟩
  | @finish _ reason =>
    obtain ⟨b, hb⟩ := g.finishRebind_eq _
    rw [hb]
    rcases reason with _ | reason
    · exact ⟨trivial, regular_of_none, hp, hn⟩
    · exact ⟨fun heq => ht (congrArg some heq), regular_of_none, hp, hn⟩
  | recyclePaused => exact ⟨trivial, regular_of_none, fun heq => ht (Option.some.inj heq), hn⟩
  | failOffline => exact ⟨trivial, regular_of_none, fun heq => ht (Option.some.inj heq), hn⟩
  | recycleStart | stopping | engineStarted | engineFailed | rebuilt => exact ⟨ht, regular_of_none, hp, hn⟩
  | finishing => exact ⟨trivial, regular_of_none, hp, none_ne_netback⟩
  | replay hnoted =>
    have hsource := fun heq => hn (hnoted.trans (congrArg some heq))
    exact ⟨⟨hsource, hsource⟩, regular_of_none, hp, none_ne_netback⟩
  | wakePaused =>
    refine ⟨?_, regular_of_none, hp, hn⟩
    show (if hooks.probeFn then Thread.wakeProbing g.pauseGen else .ended).Regular
    split_ifs <;> trivial
  | wakeOnline => exact ⟨trivial, fun u hu => Option.some.inj hu ▸ trivial, hp, hn⟩
  | handoverLate | handoverGap | recycleLate | recycleBusy | recycleExhausted | ipChanged
  | failOnline | softResume | wakeLate => exact ⟨trivial, regular_of_none, hp, hn⟩

theorem Regular.put {s : System} (h : Regular s) {g : Guard} {o : Option Thread}
    (ho : ∀ u, o = some u → u.Regular) (hp : g.pendingRecycle ≠ some .netback)
    (hn : g.pendingHandover = s.shared.pendingHandover) : Regular (s.put g o) where
  threads u hu := by
    rcases Pool.mem_put.mp hu with hold | hnew
    · exact h.threads u hold
    · exact ho u hnew
  pendingRecycle := hp
  pendingHandover := fun heq => h.pendingHandover (hn.symm.trans heq)

theorem Regular.step {s s' : System} {ev : Event} (h : Regular s)
    (hs : s.step hooks ev = some s') : Regular s' := by
  cases step_cases hs with
  | go ht hout =>
    obtain ⟨hnext, hstarted, hp, hn⟩ := (step_act hout).regular
      (h.threads _ (List.mem_of_getElem? ht)) h.pendingRecycle h.pendingHandover
    refine ⟨fun u hu => ?_, hp, hn⟩
    rcases (Pool.mem_after ht).mp hu with rfl | hnew | hold
    · exact hnext
    · exact hstarted u hnew
    · exact h.threads u (List.mem_of_mem_eraseIdx hold)
  | tick | publish | die => exact h.put nofun h.pendingRecycle rfl
  | netlost | wake | connect =>
    exact h.put (fun u hu => Option.some.inj hu ▸ trivial) h.pendingRecycle rfl
  | @notice n =>
    refine h.put (fun u hu => Option.some.inj hu ▸ ?_) h.pendingRecycle rfl
    cases n with
    | netback => rfl
    | stall | handover | netchange => exact ⟨nofun, nofun⟩
  | @dial ok =>
    obtain ⟨_, _, pending, hdial, hpending⟩ := s.shared.noteDialResult_eq ok
    have hstarted : ∀ u, (s.shared.noteDialResult ok).2 = some u → u.Regular :=
      fun u hu => noteDialResult_started hu ▸ nofun
    rw [hdial]
    refine h.put hstarted ?_ rfl
    rcases hpending with rfl | rfl | rfl
    · exact nofun
    · exact some_getD_ne_netback h.pendingRecycle nofun
    · exact h.pendingRecycle

theorem kept_step {p q : System × Debts} {ev : Event} (hreg : Regular p.1) (h : Kept p)
    (hstep : healStep hooks p ev = some q) : Kept q ↔ Received hooks p ev := by
  obtain ⟨t, m⟩ := q
  obtain ⟨hs, hm⟩ := recording_eq_some.mp hstep
  obtain rfl : m = p.2.note hooks p.1 ev := hm
  replace hs : p.1.step hooks ev = some t := hs
  cases step_cases hs with
  | @go i r t out ht hout =>
    have hact := step_act hout
    have hreceived : Received hooks p (.go i r) ↔
        (i ∈ p.2.owed → t.turnedAway hooks p.1.shared r = false) ∧
          (p.2.noted → t.quits p.1.shared = false) := by
      rw [Received, ht]
      exact ⟨fun hall => hall t rfl, fun hone u hu => Option.some.inj hu ▸ hone⟩
    rw [hreceived, ← h.owed_go ht (hreg.threads t (List.mem_of_getElem? ht)) hact, ← h.noted_go hact,
      Debts.note_go ht hout]
    exact ⟨fun hkept => ⟨hkept.owed, hkept.noted⟩, fun hboth => ⟨hboth.1, hboth.2⟩⟩
  | @dial ok =>
    obtain ⟨_, _, _, hdial, -⟩ := p.1.shared.noteDialResult_eq ok
    rw [hdial]
    exact iff_of_true (h.put rfl rfl) trivial
  | tick | netlost | notice | wake | connect | publish | die =>
    exact iff_of_true (h.put rfl rfl) trivial

/-! ### Closer and closer -/

theorem Look.closer {next : Thread} {started : Option Thread} (h : Look hooks g r t next started)
    (ht : t.carries) : (started = none → next.distance g.now < t.distance g.now) ∧
      ∀ u, started = some u → u.distance g.now < t.distance g.now := by
  cases h with
  | rebound | softDead | probeHeal | probeSoft =>
    refine ⟨nofun, fun u hu => Option.some.inj hu ▸ ?_⟩
    simp only [Thread.distance]
    omega
  | watchStart =>
    refine ⟨fun _ => ?_, nofun⟩
    simp only [Thread.distance]
    split_ifs <;> omega
  | watchExpired htime =>
    refine ⟨fun _ => ?_, nofun⟩
    simp only [Thread.distance]
    split_ifs <;> omega
  | watchStale htime =>
    refine ⟨fun _ => ?_, nofun⟩
    simp only [Thread.distance]
    split_ifs <;> omega
  | watchPaths hwake htime =>
    refine ⟨fun _ => ?_, nofun⟩
    simp only [Thread.distance]
    split_ifs <;> omega
  | watchAgain =>
    have hpoll : 0 < dataPathRebindPoll := by decide
    refine ⟨fun _ => ?_, nofun⟩
    simp only [Thread.distance]
    split_ifs <;> omega
  | recycling | probeStale | probe | probeOk | probeFailed | wakeOk | wakeFailed | probedStale
  | probed | pathRejected | pathWait | pathDead | pathUp => exact nomatch ht
  | _ =>
    refine ⟨fun _ => ?_, nofun⟩
    simp only [Thread.distance]
    omega

theorem resumed_closer {source reason : Reason} {need : Bool} {k : After}
    (hreg : (Thread.resumed source need reason k).Regular) :
    ((g.afterResume source need reason k).started = none →
        k.next.distance g.now < (Thread.resumed source need reason k).distance g.now) ∧
      ∀ u, (g.afterResume source need reason k).started = some u →
        u.distance g.now < (Thread.resumed source need reason k).distance g.now := by
  by_cases hback : source = .netback
  · subst hback
    -- only `netback` itself resumes without a caller
    cases k with
    | onHandover => exact absurd rfl hreg.1.1
    | probeSucceeded => exact absurd rfl hreg.1.1
    | done =>
      refine ⟨fun hnone => absurd hnone (Option.some_ne_none _),
        fun u hu => Option.some.inj hu ▸ ?_⟩
      split_ifs
      all_goals
        simp only [Thread.distance]
        omega
  · cases k with
    | done => exact absurd hreg.1 hback
    | onHandover | probeSucceeded =>
      refine ⟨fun _ => ?_, fun u hu => ?_⟩
      · simp only [After.next, Thread.distance]
        omega
      · rw [Guard.afterResume, if_pos hback] at hu
        cases hu

theorem Act.closer (h : Act hooks g r t out) (hreg : t.Regular) (ht : t.carries) :
    (out.started = none → out.next.distance g.now < t.distance g.now) ∧
      ∀ u, out.started = some u → u.distance g.now < t.distance g.now := by
  cases h with
  | look h => exact h.closer ht
  | @resumed source reason need k => exact resumed_closer hreg
  | @pass _ k | @unpause _ k =>
    refine ⟨fun _ => ?_, nofun⟩
    cases k with
    | done => exact nomatch ht
    | onHandover | probeSucceeded =>
      simp only [After.next, Thread.distance]
      omega
  | refused =>
    refine ⟨nofun, fun u hu => Option.some.inj hu ▸ ?_⟩
    simp only [Thread.distance]
    omega
  | @finish _ reason =>
    -- a watchdog that finds its rebind healed has nothing to hand on
    refine ⟨fun _ => ?_, nofun⟩
    cases reason with
    | none => exact nomatch ht
    | some =>
      simp only [Option.elim_some, Thread.distance]
      omega
  | netlost | stopping | engineStarted | engineFailed | ipChanged | rebuilt | finishing | replay
  | failOffline | failOnline | wakeLate | wakePaused | wakeOnline => exact nomatch ht
  | _ =>
    refine ⟨fun _ => ?_, nofun⟩
    simp only [Guard.watchSoftResume, Thread.distance]
    omega

/-- Who still has the heal after its turn has started nobody. -/
theorem started_of_owed {l : Debts} {n i : ℕ} (hact : Act hooks g r t out) (ht : t.carries)
    (hi : i ∈ l.owed) (hlt : i < n) (howed : i ∈ (l.turn n i out (t.fate hooks g out)).owed) :
    out.started = none := by
  cases hact.goes with
  | on hfate hstarted => exact hstarted
  | taken hfate hnext hstarted => exact hstarted
  | moved hfate u hstarted =>
    have hmoves : out.started.isSome ∧ i ∈ l.owed := ⟨by rw [hstarted]; rfl, hi⟩
    rw [hfate, Debts.turn, if_pos hmoves] at howed
    rcases List.mem_cons.mp howed with hn | hsettled
    · exact absurd hn (Nat.ne_of_lt hlt)
    · exact absurd rfl (Debts.mem_settle.mp hsettled).2
  | done hfate | noted hfate =>
    rw [hfate] at howed
    exact absurd rfl (Debts.mem_settle.mp howed).2
  | replayed hfate hbare | released hfate hbare => exact nomatch hbare.symm.trans ht

theorem Kept.closer {p : System × Debts} (h : Kept p) (hreg : Regular p.1) (ev : Event) :
    Closer hooks p ev := by
  rintro i r ⟨q, m⟩ rfl hi hstep j t u ht hu howed hj
  obtain ⟨hs, hm⟩ := recording_eq_some.mp hstep
  obtain rfl : m = p.2.note hooks p.1 (.go i r) := hm
  obtain ⟨v, hv, hcarries⟩ := h.owed i hi
  obtain rfl := Option.some.inj (hv.symm.trans ht)
  cases step_cases hs with
  | @go _ _ v' out hv' hout =>
    obtain rfl := Option.some.inj (hv.symm.trans hv')
    have hact := step_act hout
    obtain ⟨hnext, hstarted⟩ := hact.closer (hreg.threads v (List.mem_of_getElem? hv)) hcarries
    show u.distance out.shared.now < v.distance p.1.shared.now
    rw [hact.now]
    replace hu : (p.1.after i out).threads[j]? = some u := hu
    rcases Pool.after_cases hu with ⟨rfl, rfl⟩ | ⟨-, hnew⟩ | ⟨hne, hold⟩
    · rw [Debts.note_go hv hout] at howed
      exact hnext (started_of_owed hact hcarries hi (Pool.lt_length hv) howed)
    · exact hstarted u hnew
    · exact absurd (Pool.lt_length hold) (Nat.not_lt.mpr (hj.resolve_left hne))

/-! ### Over a run -/

def healNew (tunIP : String) (now : ℕ) : System × Debts := (.new tunIP now, ⟨[], false⟩)

theorem always_kept_iff (hooks : Hooks) (tunIP : String) (now : ℕ) (events : List Event) :
    Always (healStep hooks) Kept (healNew tunIP now) events ↔
      Admits (healStep hooks) (Received hooks) (healNew tunIP now) events := by
  have hnew : Regular (healNew tunIP now).1 := ⟨nofun, nofun, nofun⟩
  refine always_iff_admits (Q := fun p => Regular p.1) (fun p ev q hreg hstep => ?_)
    (fun p ev q hreg h hstep => ?_) hnew ⟨nofun, nofun⟩
  · exact hreg.step (recording_eq_some.mp hstep).1
  · exact kept_step hreg h hstep

theorem closer_of_received (hooks : Hooks) (tunIP : String) (now : ℕ) (events : List Event)
    (h : Admits (healStep hooks) (Received hooks) (healNew tunIP now) events) :
    Admits (healStep hooks) (Closer hooks) (healNew tunIP now) events := by
  have hnew : Regular (healNew tunIP now).1 := ⟨nofun, nofun, nofun⟩
  refine Admits.of_invariant (P := fun p => Regular p.1 ∧ Kept p)
    (fun p ev q hp hok hstep => ⟨?_, ?_⟩) (fun p ev hp _ => hp.2.closer hp.1 ev)
    ⟨hnew, nofun, nofun⟩ h
  · exact hp.1.step (recording_eq_some.mp hstep).1
  · exact (kept_step hp.1 hp.2 hstep).mpr hok

/-- **A deferred heal is never lost**, and every turn brings it closer to a rebind of a
running engine, a recycle or `pendingRecycle`, exactly as long as whoever has it is
received. -/
theorem deferred_heal_kept_iff (hooks : Hooks) (tunIP : String) (now : ℕ) (events : List Event) :
    (Always (healStep hooks) Kept (healNew tunIP now) events ∧
        Admits (healStep hooks) (Closer hooks) (healNew tunIP now) events) ↔
      Admits (healStep hooks) (Received hooks) (healNew tunIP now) events := by
  have hiff := always_kept_iff hooks tunIP now events
  exact ⟨fun h => hiff.mp h.1, fun h => ⟨hiff.mpr h, closer_of_received hooks tunIP now events h⟩⟩

/-- A rebind, then the network is lost; a dial that times out asks for a heal, and a stall
ends the pause two seconds after the rebind. -/
theorem stall_discards :
    ¬ ∀ events, Always (healStep ⟨true, true, true, true⟩) Kept (healNew "10.66.0.2" 0) events := by
  intro hclaim
  obtain ⟨p, hp, howed, hover⟩ : ∃ p,
      run (healStep ⟨true, true, true, true⟩) (healNew "10.66.0.2" 0)
        (let yes : Reply := ⟨true, 0, "", 0⟩
         Event.notice .handover :: List.replicate 3 (.go 0 yes) ++
          [Event.tick second, .netlost, .go 2 yes, .dial false, .tick second, .notice .stall] ++
          List.replicate 3 (Event.go 4 yes)) = some p ∧
        4 ∈ p.2.owed ∧ p.1.threads[4]? = some .ended := ⟨_, rfl, by decide⟩
  obtain ⟨t, ht, hcarries⟩ := (always_iff_prefixes.mp (hclaim _) _ List.prefix_rfl p hp).owed 4 howed
  obtain rfl := Option.some.inj (ht.symm.trans hover)
  exact nomatch hcarries

end Csqtt.DataPath
