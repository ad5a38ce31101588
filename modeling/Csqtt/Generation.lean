/-
Generations: the epoch field of every GETCONF that one helper process builds.

The Go helper draws an identity once (`nextEngineIdentity`) and bakes it into
the configuration JSON; the engine adds `GEN_OFFSET`, which `enter` and
`note_path_lost` bump and every engine start zeroes.  A recycle of the data path
stops the engine and starts it again with the same JSON.

* `recycle_goes_back` — one bump, one GETCONF, one recycle, and the next GETCONF
  carries the smaller generation again;
* `generations_monotone` — in a run that recycles only while no GETCONF above
  the base generation has been built, and whose offset does not wrap around,
  the generations never go backwards.

A stop only cancels, it waits for nobody: calls of the old engine may still be
in progress when the new one resets the statics, and the model lets them.
-/
import Csqtt.Idle

open Transition

namespace Csqtt.Generation

open Idle (Memory Call callStep saturatingAdd)

/-! ### The helper's side -/

/-- What the helper gives every engine start. -/
structure Identity where
  deviceId : String
  generation : BitVec 64
  salt : String
  deriving DecidableEq, Repr

/-- The generation half of `nextEngineIdentity`: the saved one, moved on. -/
def nextGeneration (saved : BitVec 64) : BitVec 64 :=
  let generation := if saved < BitVec.allOnes 64 then saved + 1 else saved
  if generation = 0 then 1 else generation

/-- Each start of the helper opens a new generation until the counter is full. -/
theorem lt_nextGeneration {saved : BitVec 64} (h : saved ≠ BitVec.allOnes 64) :
    saved < nextGeneration saved := by
  have hlt : saved < BitVec.allOnes 64 := by
    rw [BitVec.lt_def]
    have := BitVec.toNat_ne.mp h
    simp only [BitVec.toNat_allOnes] at this ⊢
    omega
  have hsucc : (saved + 1).toNat = saved.toNat + 1 := by
    rw [BitVec.lt_def, BitVec.toNat_allOnes] at hlt
    rw [BitVec.toNat_add]
    exact Nat.mod_eq_of_lt (by simpa using by omega)
  have hne : saved + 1 ≠ 0 := fun h0 => by rw [h0] at hsucc; cases hsucc
  rw [nextGeneration, if_pos hlt, if_neg hne, BitVec.lt_def, hsucc]
  omega

/-! ### The engine's side -/

/-- The fields of a GETCONF that name its epoch. -/
structure Registration where
  deviceId : String
  salt : String
  generation : BitVec 64
  deriving DecidableEq, Repr

structure State where
  memory : Memory
  call : ℕ → Option Call
  /-- Ghost: the GETCONFs built so far, the newest first. -/
  built : List Registration

def State.init (total : ℕ) : State := ⟨Memory.initial.reset total, fun _ => none, []⟩

inductive Label where
  | start (thread : ℕ) (call : Call)
  | advance (thread : ℕ)
  | build
  | recycle
  deriving DecidableEq, Repr

/-- `build` stands for the read of `GEN_OFFSET` in `idle::generation`: that read
settles the generation field, whatever the builder reads afterwards. -/
def step (identity : Identity) (total : ℕ) (s : State) : Label → Option State
  | .start t c =>
    if s.call t = none ∧ c.IsEntry then
      some { s with call := Function.update s.call t (some c) }
    else none
  | .advance t =>
    (s.call t).map fun c =>
      { s with
        memory := (callStep s.memory c).1
        call := Function.update s.call t (callStep s.memory c).2 }
  | .build =>
    some { s with
      built := ⟨identity.deviceId, identity.salt,
        s.memory.generation identity.generation⟩ :: s.built }
  | .recycle => some { s with memory := s.memory.reset total }

/-- For one device and salt, a later GETCONF never carries a smaller generation. -/
def Monotone (s : State) : Prop :=
  s.built.Pairwise fun later earlier =>
    later.deviceId = earlier.deviceId → later.salt = earlier.salt →
      earlier.generation ≤ later.generation

/-- The engine is recycled only while no GETCONF has gone above the base, and
`enter` does not wrap the offset around. -/
def Unadvertised (identity : Identity) (s : State) : Label → Prop
  | .recycle => ∀ r ∈ s.built, r.generation ≤ identity.generation
  | .advance t =>
    s.call t = some .enterBumpGeneration → s.memory.genOffset ≠ BitVec.allOnes 64
  | _ => True

instance (identity : Identity) (s : State) (l : Label) : Decidable (Unadvertised identity s l) := by
  unfold Unadvertised
  split <;> infer_instance

/-! ### The offset only grows -/

theorem toNat_saturatingAdd (a b : BitVec 64) :
    (saturatingAdd a b).toNat = min (a.toNat + b.toNat) (2 ^ 64 - 1) := by
  unfold saturatingAdd
  split
  case isTrue h => rw [BitVec.toNat_add, Nat.mod_eq_of_lt h]; omega
  case isFalse h => rw [BitVec.toNat_allOnes]; omega

theorem le_saturatingAdd (a b : BitVec 64) : a ≤ saturatingAdd a b := by
  rw [BitVec.le_def, toNat_saturatingAdd]
  have := a.isLt
  omega

theorem saturatingAdd_mono (base : BitVec 64) {a b : BitVec 64} (h : a ≤ b) :
    saturatingAdd base a ≤ saturatingAdd base b := by
  rw [BitVec.le_def] at h ⊢
  rw [toNat_saturatingAdd, toNat_saturatingAdd]
  omega

theorem callStep_genOffset (m : Memory) (c : Call)
    (h : c = .enterBumpGeneration → m.genOffset ≠ BitVec.allOnes 64) :
    m.genOffset ≤ (callStep m c).1.genOffset := by
  cases c with
  | enterBumpGeneration =>
    have hne := BitVec.toNat_ne.mp (h rfl)
    have hlt := m.genOffset.isLt
    rw [BitVec.toNat_allOnes] at hne
    show m.genOffset ≤ m.genOffset + 1
    rw [BitVec.le_def, BitVec.toNat_add]
    rw [Nat.mod_eq_of_lt (by simpa using by omega)]
    exact Nat.le_succ _
  | lostCompareExchange w current =>
    simp only [callStep]
    split
    case isTrue heq =>
      rw [heq]
      exact le_saturatingAdd current 1
    case isFalse => exact BitVec.le_refl _
  | enterLoadTotal keep =>
    simp only [callStep]
    split <;> exact BitVec.le_refl _
  | _ => exact BitVec.le_refl _

/-! ### Runs -/

/-- The invariant: nothing built is above what a GETCONF of now would carry. -/
structure NotAhead (identity : Identity) (s : State) : Prop where
  monotone : Monotone s
  le_current : ∀ r ∈ s.built, r.generation ≤ s.memory.generation identity.generation

theorem NotAhead.step {identity : Identity} {total : ℕ} {s s' : State} {l : Label}
    (hs : NotAhead identity s) (hok : Unadvertised identity s l)
    (h : step identity total s l = some s') : NotAhead identity s' := by
  cases l with
  | start t c =>
    simp only [Generation.step] at h
    split at h
    · rw [← Option.some_inj.mp h]
      exact ⟨hs.monotone, hs.le_current⟩
    · cases h
  | advance t =>
    obtain ⟨c, hc, rfl⟩ := Option.map_eq_some_iff.mp h
    have hgrow := callStep_genOffset s.memory c fun hbump => hok (hbump ▸ hc)
    exact ⟨hs.monotone, fun r hr =>
      BitVec.le_trans (hs.le_current r hr) (saturatingAdd_mono _ hgrow)⟩
  | build =>
    rw [← Option.some_inj.mp h]
    refine ⟨List.pairwise_cons.mpr ⟨fun r hr _ _ => hs.le_current r hr, hs.monotone⟩, ?_⟩
    rintro r (_ | ⟨_, hr⟩)
    · exact BitVec.le_refl _
    · exact hs.le_current r hr
  | recycle =>
    rw [← Option.some_inj.mp h]
    exact ⟨hs.monotone, fun r hr => BitVec.le_trans (hok r hr) (le_saturatingAdd _ _)⟩

theorem generations_monotone (identity : Identity) (total : ℕ) (labels : List Label)
    (h : Admits (step identity total) (Unadvertised identity) (State.init total) labels) :
    Always (step identity total) Monotone (State.init total) labels :=
  have hinit : NotAhead identity (State.init total) := ⟨.nil, nofun⟩
  (always_of_admits (fun _ _ _ hs hok hl => hs.step hok hl) hinit h).mono fun _ hs => hs.monotone

/-- A recycle first, then an `enter 2` and a GETCONF in its epoch. -/
def recycleThenEnter : List Label :=
  [.build, .recycle, .start 0 (Idle.enter 2)] ++ List.replicate 8 (.advance 0) ++ [.build]

def phone (saved : BitVec 64) : Identity := ⟨"phone", nextGeneration saved, "c0ffee"⟩

theorem monotone_recycleThenEnter :
    Always (step (phone 4) 27) Monotone (State.init 27) recycleThenEnter :=
  generations_monotone (phone 4) 27 recycleThenEnter (by decide)

/-- The same with the recycle last: generation 6 goes out, then 5. -/
def enterThenRecycle : List Label :=
  .start 0 (Idle.enter 2) :: List.replicate 8 (.advance 0) ++ [.build, .recycle, .build]

theorem recycle_goes_back :
    ∃ s, run (step (phone 4) 27) (State.init 27) enterThenRecycle = some s ∧
      s.built.map Registration.generation = [5, 6] ∧ ¬ Monotone s := by
  refine ⟨_, rfl, rfl, fun h => ?_⟩
  exact absurd ((List.pairwise_cons.mp h).1 _ (.head _) rfl rfl) (by decide)

end Csqtt.Generation
