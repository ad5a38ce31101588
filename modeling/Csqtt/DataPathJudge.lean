/-
Does a rebind in flight always have a judge?

`onHandover` sets `rebindInFlight` with a new generation and starts the watchdog of this
generation; `finishRebind` clears the flag for its own generation only.  `heal` relies on
it: less than 3 s after a rebind it leaves one that is in flight and has no path up to the
watchdog.

* `rebind_supervised` — in all runs a rebind in flight has a live watchdog, or `onHandover`
  is about to start it; nobody but `onHandover` and the judge of the current generation
  touches the flag; and whenever `heal` returns early, every rebind so far has been judged
  or has a live judge;
* `Act.judges` — a judge hands its rebind on, closer to the judgement, or judges it.
-/
import Csqtt.DataPathHeal

open Transition

namespace Csqtt.DataPath

/-- The generation that a watchdog has to judge, up to its `finishRebind`. -/
def Thread.watched : Thread → Option ℕ
  | .watchdog gen _ | .watchSettle gen _ _ | .watchLoop gen _ _ _ | .watchPaths gen _ _
  | .watchEnd gen _ | .finish gen _ => some gen
  | _ => none

/-- The generation for which `onHandover` has set the flag.  It has neither started the
watchdog yet nor, when the engine refuses, cleared the flag. -/
def Thread.handed : Thread → Option ℕ
  | .rebind gen _ | .refused gen _ => some gen
  | _ => none

def Thread.judges (t : Thread) : Option ℕ := t.watched.or t.handed

/-- The generation that it judges in its next turn. -/
def Thread.verdict : Thread → Option ℕ
  | .refused gen _ | .finish gen _ => some gen
  | _ => none

def Guard.rebinding (g : Guard) : ℕ × Bool := (g.rebindGen, g.rebindInFlight)

/-- The generations that have been judged. -/
def System.noteVerdict (s : System) (judged : List ℕ) : Event → List ℕ
  | .go i _ => (s.threads[i]?.bind Thread.verdict).toList ++ judged
  | _ => judged

def judgeStep (hooks : Hooks) : System × List ℕ → Event → Option (System × List ℕ) :=
  recording (System.step hooks) System.noteVerdict

def judgeNew (tunIP : String) (now : ℕ) : System × List ℕ := (.new tunIP now, [])

variable {hooks : Hooks} {g : Guard} {r : Reply} {t : Thread} {out : Out} {gen : ℕ}

/-! ### The turns -/

theorem Guard.finishRebind_rebinding (g : Guard) (gen : ℕ) :
    (g.finishRebind gen).rebinding = g.rebinding ∨
      (g.rebindGen = gen ∧ (g.finishRebind gen).rebinding = (g.rebindGen, false)) := by
  rw [Guard.finishRebind]
  split_ifs with hgen
  · exact .inr ⟨hgen, rfl⟩
  · exact .inl rfl

/-- What a turn does to the flag and the generation. -/
theorem Act.rebinding (h : Act hooks g r t out) :
    out.shared.rebinding = g.rebinding ∨
      (∃ source, t = .handover source ∧ out.next = .rebind (g.rebindGen + 1) source ∧
        out.shared.rebinding = (g.rebindGen + 1, true)) ∨
      (t.verdict = some g.rebindGen ∧ out.shared.rebinding = (g.rebindGen, false)) := by
  cases h with
  | @handoverRebind source => exact .inr (.inl ⟨source, rfl, rfl, rfl⟩)
  | @refused gen | @finish gen =>
    rcases g.finishRebind_rebinding gen with hkept | ⟨rfl, hcleared⟩
    · exact .inl hkept
    · exact .inr (.inr ⟨rfl, hcleared⟩)
  | _ => exact .inl rfl

/-- A judge that does not judge yet stays one, and `onHandover` starts the watchdog. -/
theorem Look.judges {next : Thread} {started : Option Thread} (h : Look hooks g r t next started)
    (ht : t.judges = some gen) : t.verdict = none ∧ t.carries ∧
      ((started = none ∧ next.judges = some gen) ∨
        ∃ u, started = some u ∧ u.judges = some gen) := by
  cases h with
  | rebound => exact ⟨rfl, rfl, .inr ⟨_, rfl, ht⟩⟩
  | refuse | watchSettle | watchBlind | watchStart | watchExpired | watchStale | watchPaths
  | watchUp | watchAgain | watchEndStale | watchEnd => exact ⟨rfl, rfl, .inl ⟨rfl, ht⟩⟩
  | _ => exact nomatch ht

/-- A judge hands its rebind on, closer to the judgement, or judges it. -/
theorem Act.judges (h : Act hooks g r t out) (ht : t.judges = some gen) :
    (t.verdict = none ∧ out.shared = g ∧
      ∃ u, (out.next = u ∨ out.started = some u) ∧ u.judges = some gen ∧
        u.distance g.now < t.distance g.now) ∨
      (t.verdict = some gen ∧ out.shared = g.finishRebind gen) := by
  cases h with
  | refused | finish =>
    obtain rfl := Option.some.inj ht
    exact .inr ⟨rfl, rfl⟩
  | look h =>
    obtain ⟨hverdict, hcarries, hjudge⟩ := h.judges ht
    obtain ⟨hnext, hstarted⟩ := h.closer hcarries
    refine .inl ⟨hverdict, rfl, ?_⟩
    rcases hjudge with ⟨hnone, hjudge⟩ | ⟨u, hu, hjudge⟩
    · exact ⟨_, .inl rfl, hjudge, hnext hnone⟩
    · exact ⟨u, .inr hu, hjudge, hstarted u hu⟩
  | _ => exact nomatch ht

/-- Only for these reasons a watchdog drops its rebind: it cannot count the paths, the guard
has gone on without it, or a path is up. -/
theorem Look.dropped {next : Thread} {started : Option Thread} (h : Look hooks g r t next started)
    (hnext : next = .finish gen none) :
    hooks.activeFn = false ∨ g.stale gen ∨ g.recycling ∨ r.paths ≠ 0 := by
  cases h with
  | watchBlind hblind => exact .inl hblind
  | watchStale _ hstale =>
    cases hnext
    exact .inr ((Bool.or_eq_true_iff.mp hstale).imp_right .inl)
  | watchUp hup => exact .inr (.inr (.inr hup))
  | watchEndStale hstale =>
    cases hnext
    exact .inr (.inl hstale)
  | _ => exact nomatch hnext

theorem Act.dropped (h : Act hooks g r t out) (hnext : out.next = .finish gen none) :
    hooks.activeFn = false ∨ g.stale gen ∨ g.recycling ∨ r.paths ≠ 0 := by
  cases h with
  | look h => exact h.dropped hnext
  | @pass _ k _ | @resumed _ _ _ k =>
    cases k with
    | _ => exact nomatch hnext
  | @finish _ reason =>
    cases reason with
    | _ => exact nomatch hnext
  | wakePaused =>
    replace hnext : (if hooks.probeFn then Thread.wakeProbing _ else .ended) = _ := hnext
    split_ifs at hnext
  | _ => exact nomatch hnext

/-- A judge may sleep, but nobody has to wake it. -/
theorem Thread.judge_wakes (g : Guard) (ht : t.judges = some gen) :
    ∃ d, ∀ r d', d ≤ d' → (t.step hooks { g with now := g.now + d' } r).isSome := by
  cases t with
  | rebind | watchdog | watchPaths | watchEnd =>
    refine ⟨0, fun r d' _ => ?_⟩
    simp only [Thread.step, Thread.look, Option.isSome_map]
    split_ifs <;> rfl
  | refused | finish => exact ⟨0, fun _ _ _ => rfl⟩
  | watchSettle _ _ wakeAt =>
    refine ⟨wakeAt, fun r d' hd => ?_⟩
    have hawake : wakeAt ≤ g.now + d' := Nat.le_trans hd (Nat.le_add_left d' g.now)
    simp only [Thread.step, Thread.look, if_pos hawake, Option.isSome_map]
    rfl
  | watchLoop _ _ _ wakeAt =>
    refine ⟨wakeAt, fun r d' hd => ?_⟩
    have hawake : ¬ g.now + d' < wakeAt :=
      Nat.not_lt.mpr (Nat.le_trans hd (Nat.le_add_left d' g.now))
    simp only [Thread.step, Thread.look, if_neg hawake, Option.isSome_map]
    split_ifs <;> rfl
  | _ => exact absurd ht.symm (Option.some_ne_none gen)

/-! ### The steps -/

theorem Step.rebinding {s s' : System} {ev : Event} (h : Step hooks s ev s') :
    s'.shared.rebinding = s.shared.rebinding ∨
      (∃ i r source, ev = .go i r ∧ s.threads[i]? = some (.handover source) ∧
        s'.shared.rebinding = (s.shared.rebindGen + 1, true)) ∨
      (∃ i r t, ev = .go i r ∧ s.threads[i]? = some t ∧ t.verdict = some s.shared.rebindGen ∧
        s'.shared.rebinding = (s.shared.rebindGen, false)) := by
  cases h with
  | @go i r t out ht hout =>
    rcases (step_act hout).rebinding with hsame | ⟨source, rfl, -, hset⟩ | ⟨hverdict, hcleared⟩
    · exact .inl hsame
    · exact .inr (.inl ⟨i, r, source, rfl, ht, hset⟩)
    · exact .inr (.inr ⟨i, r, t, rfl, ht, hverdict, hcleared⟩)
  | @dial ok =>
    obtain ⟨_, _, _, hdial, -⟩ := s.shared.noteDialResult_eq ok
    rw [hdial]
    exact .inl rfl
  | _ => exact .inl rfl

theorem Thread.judges_of_verdict (h : t.verdict = some gen) : t.judges = some gen := by
  cases t with
  | refused | finish => exact h
  | _ => exact nomatch h

/-- A rebind keeps its judge until it is judged. -/
theorem judge_kept {s : System} {i : ℕ} (ht : s.threads[i]? = some t)
    (hact : Act hooks s.shared r t out) (h : ∃ u ∈ s.threads, u.judges = some gen)
    (hverdict : t.verdict ≠ some gen) : ∃ u ∈ (s.after i out).threads, u.judges = some gen := by
  -- the judge that has its turn goes on, or starts the watchdog
  refine Pool.exists_after ht h fun hjudge => ?_
  rcases hact.judges hjudge with ⟨-, -, u, hnext | hstarted, hu, -⟩ | ⟨hjudged, -⟩
  · exact .inl (hnext ▸ hu)
  · exact .inr ⟨u, hstarted, hu⟩
  · exact absurd hjudged hverdict

theorem System.noteVerdict_go {s : System} {i : ℕ} (ht : s.threads[i]? = some t)
    (judged : List ℕ) : System.noteVerdict s judged (.go i r) = t.verdict.toList ++ judged := by
  rw [System.noteVerdict, ht, Option.bind_some]

/-! ### Over a run -/

/-- A rebind in flight has a judge, and every rebind so far has been judged or has one. -/
structure Minded (p : System × List ℕ) : Prop where
  flight : p.1.shared.rebindInFlight → ∃ t ∈ p.1.threads, t.judges = some p.1.shared.rebindGen
  past : ∀ gen, 0 < gen → gen ≤ p.1.shared.rebindGen →
    gen ∈ p.2 ∨ ∃ t ∈ p.1.threads, t.judges = some gen

theorem minded_new (tunIP : String) (now : ℕ) : Minded (judgeNew tunIP now) where
  flight := nofun
  past _ hpos hle := absurd hpos (Nat.not_lt.mpr hle)

/-- A step in which nobody judges. -/
theorem Minded.put {s : System} {judged : List ℕ} (h : Minded (s, judged)) {g : Guard}
    {o : Option Thread} (hg : g.rebinding = s.shared.rebinding) : Minded (s.put g o, judged) := by
  obtain ⟨hgen, hflight⟩ := Prod.mk.inj hg
  refine ⟨fun hin => ?_, fun gen hpos hle => ?_⟩
  · show ∃ t ∈ (s.put g o).threads, t.judges = some g.rebindGen
    rw [hgen]
    exact Pool.exists_put (h.flight (hflight ▸ hin))
  · exact (h.past gen hpos (hgen ▸ hle)).imp_right Pool.exists_put

theorem Minded.after {s : System} {judged : List ℕ} (h : Minded (s, judged)) {i : ℕ}
    (ht : s.threads[i]? = some t) (hact : Act hooks s.shared r t out) :
    Minded (s.after i out, t.verdict.toList ++ judged) := by
  -- whoever has been judged or has a judge before the turn
  have hold : ∀ gen, 0 < gen → gen ≤ s.shared.rebindGen →
      gen ∈ t.verdict.toList ++ judged ∨ ∃ u ∈ (s.after i out).threads, u.judges = some gen := by
    intro gen hpos hle
    by_cases hverdict : t.verdict = some gen
    · exact .inl (List.mem_append_left _ (Option.mem_toList.mpr hverdict))
    · exact (h.past gen hpos hle).imp (List.mem_append_right _)
        fun hjudge => judge_kept ht hact hjudge hverdict
  rcases hact.rebinding with hsame | ⟨source, rfl, hnext, hset⟩ | ⟨-, hcleared⟩
  · obtain ⟨hgen, hflight⟩ := Prod.mk.inj hsame
    refine ⟨fun hin => ?_, fun gen hpos hle => hold gen hpos (hgen ▸ hle)⟩
    show ∃ u ∈ (s.after i out).threads, u.judges = some out.shared.rebindGen
    rw [hgen]
    refine judge_kept ht hact (h.flight (hflight ▸ hin)) fun hverdict => ?_
    -- the judge of the current generation would have cleared the flag
    rcases hact.judges (Thread.judges_of_verdict hverdict) with ⟨hnone, -⟩ | ⟨-, hfinish⟩
    · exact absurd (hverdict.symm.trans hnone) (Option.some_ne_none _)
    · have hcleared : out.shared.rebindInFlight = false := by
        rw [hfinish, Guard.finishRebind, if_pos rfl]
      exact absurd hin (Bool.eq_false_iff.mp hcleared)
  · obtain ⟨hgen, -⟩ := Prod.mk.inj hset
    have hnew : ∃ u ∈ (s.after i out).threads, u.judges = some (s.shared.rebindGen + 1) :=
      ⟨out.next, (Pool.mem_after ht).mpr (.inl rfl), by rw [hnext]; rfl⟩
    refine ⟨fun _ => ?_, fun gen hpos hle => ?_⟩
    · show ∃ u ∈ (s.after i out).threads, u.judges = some out.shared.rebindGen
      rw [hgen]
      exact hnew
    · replace hle : gen ≤ out.shared.rebindGen := hle
      rw [hgen] at hle
      rcases Nat.le_succ_iff.mp hle with hle | rfl
      · exact hold gen hpos hle
      · exact .inr hnew
  · obtain ⟨hgen, hflight⟩ := Prod.mk.inj hcleared
    refine ⟨fun hin => ?_, fun gen hpos hle => hold gen hpos (hgen ▸ hle)⟩
    exact absurd hin (Bool.eq_false_iff.mp hflight)

theorem Minded.step {p q : System × List ℕ} {ev : Event} (h : Minded p)
    (hstep : judgeStep hooks p ev = some q) : Minded q := by
  obtain ⟨s, judged⟩ := p
  obtain ⟨s', judged'⟩ := q
  obtain ⟨hs, rfl⟩ := recording_eq_some.mp hstep
  cases step_cases hs with
  | go ht hout =>
    show Minded (_, System.noteVerdict _ _ _)
    rw [System.noteVerdict_go ht]
    exact h.after ht (step_act hout)
  | @dial ok =>
    obtain ⟨_, _, _, hdial, -⟩ := s.shared.noteDialResult_eq ok
    rw [hdial]
    exact h.put rfl
  | _ => exact h.put rfl

/-- Who looks after the rebinds in a state, and what the next step can do about it. -/
structure Supervised (hooks : Hooks) (p : System × List ℕ) : Prop where
  /-- A rebind in flight has a live watchdog, unless `onHandover` is about to start it. -/
  watchdog : p.1.shared.rebindInFlight →
    (∀ t ∈ p.1.threads, t.handed ≠ some p.1.shared.rebindGen) →
      ∃ t ∈ p.1.threads, t.watched = some p.1.shared.rebindGen
  /-- The watchdog of an older generation changes nothing about it. -/
  older : ∀ i r q t gen, p.1.threads[i]? = some t → t.watched = some gen →
    gen ≠ p.1.shared.rebindGen → judgeStep hooks p (.go i r) = some q →
      q.1.shared.rebinding = p.1.shared.rebinding
  /-- Only the section of `onHandover` and the judge of the current generation do. -/
  changed : ∀ ev q, judgeStep hooks p ev = some q →
    q.1.shared.rebinding = p.1.shared.rebinding ∨
      (∃ i r source, ev = .go i r ∧ p.1.threads[i]? = some (.handover source) ∧
        q.1.shared.rebinding = (p.1.shared.rebindGen + 1, true)) ∨
      (∃ i r t, ev = .go i r ∧ p.1.threads[i]? = some t ∧
        t.verdict = some p.1.shared.rebindGen ∧
        q.1.shared.rebinding = (p.1.shared.rebindGen, false))
  /-- A judge hands its rebind on, closer to the judgement, or judges it. -/
  turn : ∀ i r q t gen, p.1.threads[i]? = some t → t.judges = some gen →
    judgeStep hooks p (.go i r) = some q →
      (∃ u ∈ q.1.threads, u.judges = some gen ∧
        u.distance q.1.shared.now < t.distance p.1.shared.now) ∨
      (gen ∈ q.2 ∧ q.1.shared = p.1.shared.finishRebind gen)
  /-- It may sleep, but nobody has to wake it. -/
  wakes : ∀ t ∈ p.1.threads, ∀ gen, t.judges = some gen → ∃ d, ∀ r d', d ≤ d' →
    (t.step hooks { p.1.shared with now := p.1.shared.now + d' } r).isSome
  /-- Dead paths are no reason to drop a rebind. -/
  dropped : ∀ i r q gen, judgeStep hooks p (.go i r) = some q →
    q.1.threads[i]? = some (.finish gen none) →
      hooks.activeFn = false ∨ p.1.shared.stale gen ∨ p.1.shared.recycling ∨ r.paths ≠ 0
  /-- When `heal` leaves a rebind to its watchdog, every rebind so far has been judged, or its
  judge lives on. -/
  early : ∀ i r q reason, p.1.threads[i]? = some (.healGap reason true) →
    judgeStep hooks p (.go i r) = some q → q.1.threads[i]? = some .ended →
      ∀ gen, 0 < gen → gen ≤ p.1.shared.rebindGen →
        gen ∈ p.2 ∨ ∃ (j : ℕ) (t : Thread), p.1.threads[j]? = some t ∧
          q.1.threads[j]? = some t ∧ t.judges = some gen

/-- Without a call of `onHandover` under way the judge is a watchdog. -/
theorem Minded.watchdog {p : System × List ℕ} (h : Minded p)
    (hin : p.1.shared.rebindInFlight)
    (hhanded : ∀ t ∈ p.1.threads, t.handed ≠ some p.1.shared.rebindGen) :
    ∃ t ∈ p.1.threads, t.watched = some p.1.shared.rebindGen := by
  obtain ⟨t, ht, hjudge⟩ := h.flight hin
  refine ⟨t, ht, ?_⟩
  rcases Option.or_eq_some_iff.mp hjudge with hwatched | ⟨-, hthread⟩
  · exact hwatched
  · exact absurd hthread (hhanded t ht)

/-- A goroutine has its turn. -/
theorem judgeStep_go {p q : System × List ℕ} {i : ℕ}
    (hstep : judgeStep hooks p (.go i r) = some q) :
    ∃ t out, p.1.threads[i]? = some t ∧ Act hooks p.1.shared r t out ∧
      q = (p.1.after i out, t.verdict.toList ++ p.2) := by
  obtain ⟨s, judged⟩ := p
  obtain ⟨s', judged'⟩ := q
  obtain ⟨hs, rfl⟩ := recording_eq_some.mp hstep
  cases step_cases hs with
  | @go _ _ t out ht hout =>
    refine ⟨t, out, ht, step_act hout, ?_⟩
    rw [← System.noteVerdict_go (r := r) ht]
    rfl

theorem older_keeps {p q : System × List ℕ} {i : ℕ} (ht : p.1.threads[i]? = some t)
    (hwatched : t.watched = some gen) (hgen : gen ≠ p.1.shared.rebindGen)
    (hstep : judgeStep hooks p (.go i r) = some q) :
    q.1.shared.rebinding = p.1.shared.rebinding := by
  obtain ⟨u, out, hu, hact, rfl⟩ := judgeStep_go hstep
  obtain rfl := Option.some.inj (ht.symm.trans hu)
  rcases hact.rebinding with hsame | ⟨source, rfl, -⟩ | ⟨hverdict, -⟩
  · exact hsame
  · exact nomatch hwatched
  · cases t with
    | finish => exact absurd (Option.some.inj (hwatched.symm.trans hverdict)) hgen
    | refused => exact nomatch hwatched
    | _ => exact nomatch hverdict

theorem judge_turn {p q : System × List ℕ} {i : ℕ} (ht : p.1.threads[i]? = some t)
    (hjudge : t.judges = some gen) (hstep : judgeStep hooks p (.go i r) = some q) :
    (∃ u ∈ q.1.threads, u.judges = some gen ∧
      u.distance q.1.shared.now < t.distance p.1.shared.now) ∨
    (gen ∈ q.2 ∧ q.1.shared = p.1.shared.finishRebind gen) := by
  obtain ⟨u, out, hu, hact, rfl⟩ := judgeStep_go hstep
  obtain rfl := Option.some.inj (ht.symm.trans hu)
  rcases hact.judges hjudge with ⟨-, -, u, hu, hjudge, hcloser⟩ | ⟨hverdict, hfinish⟩
  · refine .inl ⟨u, (Pool.mem_after ht).mpr ?_, hjudge, ?_⟩
    · exact hu.imp Eq.symm .inl
    · show u.distance out.shared.now < _
      rw [hact.now]
      exact hcloser
  · exact .inr ⟨List.mem_append_left _ (Option.mem_toList.mpr hverdict), hfinish⟩

theorem Minded.early {p q : System × List ℕ} (h : Minded p) {i : ℕ} {reason : Reason}
    (ht : p.1.threads[i]? = some (.healGap reason true))
    (hstep : judgeStep hooks p (.go i r) = some q) (hpos : 0 < gen)
    (hle : gen ≤ p.1.shared.rebindGen) :
    gen ∈ p.2 ∨ ∃ (j : ℕ) (t : Thread), p.1.threads[j]? = some t ∧
      q.1.threads[j]? = some t ∧ t.judges = some gen := by
  obtain ⟨-, out, -, -, rfl⟩ := judgeStep_go hstep
  refine (h.past gen hpos hle).imp_right ?_
  rintro ⟨t, hmem, hjudge⟩
  obtain ⟨j, hj⟩ := List.mem_iff_getElem?.mp hmem
  -- `heal` itself is nobody's judge
  have hij : j ≠ i := by
    rintro rfl
    obtain rfl := Option.some.inj (hj.symm.trans ht)
    exact nomatch hjudge
  exact ⟨j, t, hj, Pool.after_other hj hij, hjudge⟩

theorem Minded.supervised {p : System × List ℕ} (h : Minded p) : Supervised hooks p where
  watchdog := h.watchdog
  older _ _ _ _ _ ht hwatched hgen hstep := older_keeps ht hwatched hgen hstep
  changed _ _ hstep := (step_cases (recording_eq_some.mp hstep).1).rebinding
  turn _ _ _ _ _ ht hjudge hstep := judge_turn ht hjudge hstep
  wakes _ _ _ hjudge := Thread.judge_wakes p.1.shared hjudge
  dropped _ _ _ _ hstep hnext := by
    obtain ⟨t, out, ht, hact, rfl⟩ := judgeStep_go hstep
    exact hact.dropped (Option.some.inj ((Pool.after_self ht).symm.trans hnext))
  early _ _ _ _ ht hstep _ _ hpos hle := h.early ht hstep hpos hle

/-- A rebind in flight always has a judge, whatever the order of handovers, heals, watchdogs,
pauses and recycles. -/
theorem rebind_supervised (hooks : Hooks) (tunIP : String) (now : ℕ) (events : List Event) :
    Always (judgeStep hooks) (Supervised hooks) (judgeNew tunIP now) events := by
  have hminded : Always (judgeStep hooks) Minded (judgeNew tunIP now) events :=
    always_of_step (fun _ _ _ h hstep => h.step hstep) (minded_new tunIP now)
  exact hminded.mono fun _ h => h.supervised

end Csqtt.DataPath
