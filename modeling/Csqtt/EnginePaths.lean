/-
Does `ACTIVE_PATHS` count the live sessions?

A session adds one when it connects and takes one away when it is dropped; an engine
that starts sets the count to zero.  If sessions of an older engine are alive then,
the count is too low from there on, and negative when they are dropped.

* `paths_counted_iff` — the count is right as long as no engine resets it over live
  sessions (and no more than `2 ^ 31 - 1` are alive), and not otherwise;
* `reset_over_live_session` — a restart while a session says goodbye.
-/
import Csqtt.EngineProcess

open Transition

namespace Csqtt.EngineProcess

/-- `ACTIVE_PATHS`, read as an `i32`, is the number of live sessions of the engine
started last and of the older ones. -/
structure PathsCounted (s : Process) : Prop where
  exact : s.activePaths.toInt =
    s.guards.count (s.started - 1) + s.guards.countP (· ≠ s.started - 1)
  nonneg : 0 ≤ s.activePaths.toInt

/-- No session is alive when a starting engine resets the count, and there is room for
one more when a session connects. -/
def NoneAlive (s : Process) : Event → Prop
  | .advance e => (s.engines e).phase = .published → s.guards = []
  | .connect _ => s.guards.length + 1 < 2 ^ 31
  | _ => True

instance (s : Process) : DecidablePred (NoneAlive s)
  | .advance _ => inferInstanceAs (Decidable (_ → _))
  | .connect _ => inferInstanceAs (Decidable (_ < _))
  | .start _ | .stop | .waitReady | .call | .giveUp | .fail _ | .selfCancel _ | .tunconf ..
  | .writer _ | .disconnect _ => isTrue trivial

theorem pathsCounted_iff {s : Process} :
    PathsCounted s ↔ s.activePaths.toInt = s.guards.length := by
  have hsplit : s.guards.length =
      s.guards.count (s.started - 1) + s.guards.countP (· ≠ s.started - 1) := by
    rw [List.count, List.length_eq_countP_add_countP (· == s.started - 1)]
    congr 2
    funext e
    exact decide_eq_decide.mpr (not_congr beq_iff_eq)
  constructor
  · intro h
    rw [h.exact, hsplit, Int.natCast_add]
  · intro h
    rw [hsplit, Int.natCast_add] at h
    exact ⟨h, h ▸ Int.add_nonneg (Int.natCast_nonneg _) (Int.natCast_nonneg _)⟩

/-! ### The count as an `i32` -/

theorem toInt_add_one {x : BitVec 32} {n : ℕ} (h : x.toInt = n) :
    (x + 1).toInt = (n + 1 : ℕ) ↔ n + 1 < 2 ^ 31 := by
  constructor
  · intro hsum
    have hlt : (x + 1).toInt < 2 ^ 31 := BitVec.toInt_lt
    omega
  · intro hlt
    rw [BitVec.toInt_add, h, show (1 : BitVec 32).toInt = 1 from rfl]
    exact Int.bmod_eq_of_le (by omega) (by omega)

theorem toInt_sub_one {x : BitVec 32} {n : ℕ} (h : x.toInt = (n + 1 : ℕ)) :
    (x - 1).toInt = n := by
  have hlt : x.toInt < 2 ^ 31 := BitVec.toInt_lt
  rw [BitVec.toInt_sub, h, show (1 : BitVec 32).toInt = 1 from rfl]
  rw [Int.bmod_eq_of_le (by omega) (by omega)]
  omega

theorem pathsCounted_step {s t : Process} {ev : Event} (hs : PathsCounted s)
    (h : s.step ev = some t) : PathsCounted t ↔ NoneAlive s ev := by
  rw [pathsCounted_iff] at hs ⊢
  cases step_cases h with
  | start | stop | waitReady | giveUp | fail | selfCancel | tunconf => exact iff_of_true hs trivial
  | call hcall =>
    cases hcall with
    | startUnready | startUnlink | startForget | startSpawn | stopMiss | stopCancel | stopUnready
    | stopUnlink | waitTun | waitPort | waitBridge => exact iff_of_true hs trivial
  | writer hwrite =>
    cases hwrite with
    | unready | unlink => exact iff_of_true hs trivial
  | @advance e _ hadvance =>
    cases hadvance with
    | zero hphase =>
      -- the count says that nobody is alive
      show (0 : Int) = s.guards.length ↔ ((s.engines e).phase = .published → s.guards = [])
      rw [eq_comm, Int.natCast_eq_zero, List.length_eq_zero_iff]
      exact ⟨fun h _ => h, fun h => h hphase⟩
    | publish hp | gate hp | unready hp | unlink hp | link hp | bind hp | ready hp | listen hp
    | leave hp | ungate hp | finish hp =>
      exact iff_of_true hs fun hphase => nomatch hp.symm.trans hphase
  | connect => exact toInt_add_one hs
  | @disconnect e hmem =>
    have hlen := List.length_erase_of_mem hmem
    have hpos := List.length_pos_of_mem hmem
    refine iff_of_true (toInt_sub_one ?_) trivial
    rw [hs, hlen]
    omega

/-- **The count is right exactly as long as it is not reset over live sessions.** -/
theorem paths_counted_iff (events : List Event) :
    Always Process.step PathsCounted .new events ↔ Admits Process.step NoneAlive .new events :=
  always_iff_admits (Q := fun _ => True) (fun _ _ _ _ _ => trivial)
    (fun _ _ _ _ hs hstep => pathsCounted_step hs hstep) trivial (pathsCounted_iff.mpr rfl)

/-- One engine runs with a session and is stopped; the next one starts; the session of
the first is dropped. -/
def restart : List Event :=
  startCall ++ List.replicate 8 (.advance 0) ++ .connect 0 :: stopCall ++ startCall ++
    List.replicate 2 (.advance 1) ++ [.disconnect 0]

/-- A session says goodbye while the next engine starts. -/
theorem reset_over_live_session : ¬ ∀ events, Always Process.step PathsCounted .new events := by
  intro hclaim
  obtain ⟨s, hs, hneg⟩ : ∃ s, run Process.step .new restart = some s ∧ s.activePaths.toInt < 0 :=
    ⟨_, rfl, by decide⟩
  exact absurd (always_iff_prefixes.mp (hclaim _) _ List.prefix_rfl s hs).nonneg
    (Int.not_le.mpr hneg)

end Csqtt.EngineProcess
