/-
Arithmetic and slices that are checked when they are used.

A subtraction below zero, a sum or a product past the word, an index or a slice outside the
list: `none`.  A program written with these runs through exactly when all of them are in order.

* `sub_eq`, `add_eq`, `mul_eq`, `slice_eq`, `byte_eq` — each is what it should be within its bound;
* `isSome_foldlM`, `foldlM_eq_none` — a loop runs through when all its steps do, and not when one
  of them never does.
-/
import Mathlib.Data.BitVec

namespace Checked

variable {α : Type*} {a b bound lo hi i : ℕ} {l : List α}

/-- Unsigned subtraction. -/
def sub (a b : ℕ) : Option ℕ := if b ≤ a then some (a - b) else none

/-- Addition below a bound. -/
def add (bound a b : ℕ) : Option ℕ := if a + b < bound then some (a + b) else none

/-- Multiplication below a bound. -/
def mul (bound a b : ℕ) : Option ℕ := if a * b < bound then some (a * b) else none

/-- `l[lo..hi]`. -/
def slice (l : List α) (lo hi : ℕ) : Option (List α) :=
  if lo ≤ hi ∧ hi ≤ l.length then some ((l.drop lo).take (hi - lo)) else none

theorem sub_eq (h : b ≤ a) : sub a b = some (a - b) := if_pos h

theorem add_eq (h : a + b < bound) : add bound a b = some (a + b) := if_pos h

theorem mul_eq (h : a * b < bound) : mul bound a b = some (a * b) := if_pos h

theorem slice_eq (hlo : lo ≤ hi) (hhi : hi ≤ l.length) :
    slice l lo hi = some ((l.drop lo).take (hi - lo)) := if_pos ⟨hlo, hhi⟩

theorem sub_eq_some {c : ℕ} : sub a b = some c ↔ b ≤ a ∧ c = a - b := by
  unfold sub
  split
  case isTrue h => simp [h, eq_comm]
  case isFalse h => simp [h]

theorem add_eq_some {c : ℕ} : add bound a b = some c ↔ a + b < bound ∧ c = a + b := by
  unfold add
  split
  case isTrue h => simp [h, eq_comm]
  case isFalse h => simp [h]

theorem mul_eq_some {c : ℕ} : mul bound a b = some c ↔ a * b < bound ∧ c = a * b := by
  unfold mul
  split
  case isTrue h => simp [h, eq_comm]
  case isFalse h => simp [h]

theorem slice_eq_some {s : List α} :
    slice l lo hi = some s ↔ (lo ≤ hi ∧ hi ≤ l.length) ∧ s = (l.drop lo).take (hi - lo) := by
  unfold slice
  split
  case isTrue h => simp [h, eq_comm]
  case isFalse h => simp [h]

/-- An index in range, with the default that a total reader would use. -/
theorem index_eq (h : i < l.length) (d : α) : l[i]? = some (l.getD i d) := by
  rw [List.getD_eq_getElem?_getD, List.getElem?_eq_getElem h, Option.getD_some]

/-! ### Refusals -/

section Refusals

variable {ε α β : Type} {x : ExceptT ε Option α} {f : α → ExceptT ε Option β}

/-- A computation that may refuse, and cannot panic. -/
def refuse (x : Except ε α) : ExceptT ε Option α := ExceptT.mk (some x)

/-- A computation that may panic, and does not refuse. -/
def demand (x : Option α) : ExceptT ε Option α := ExceptT.mk (x.map Except.ok)

@[simp] theorem run_refuse (x : Except ε α) : (refuse x).run = some x := rfl

@[simp] theorem run_demand (x : Option α) : (demand x : ExceptT ε Option α).run = x.map .ok := rfl

theorem demand_eq_ok {x : Option α} {a : α} :
    (demand x : ExceptT ε Option α).run = some (.ok a) ↔ x = some a := by
  cases x with
  | none => simp
  | some b => simp

/-- Two computations in a row give a value when the first does, and the second does with it. -/
theorem bind_eq_ok {b : β} : (x >>= f).run = some (.ok b) ↔
    ∃ a, x.run = some (.ok a) ∧ (f a).run = some (.ok b) := by
  rw [ExceptT.run_bind]
  cases x.run with
  | none => simp
  | some r =>
    cases r with
    | error e => simp
    | ok a => simp

/-- They do not panic when the first does not, nor the second after any value of it. -/
theorem bind_ne_none (hx : x.run ≠ none) (hf : ∀ a, x.run = some (.ok a) → (f a).run ≠ none) :
    (x >>= f).run ≠ none := by
  rw [ExceptT.run_bind]
  cases h : x.run with
  | none => exact absurd h hx
  | some r =>
    cases r with
    | error e => simp
    | ok a => exact hf a h

end Refusals

/-! ### Loops -/

variable {σ : Type*} {f : σ → α → Option σ}

/-- A loop runs through when every one of its steps does. -/
theorem isSome_foldlM (h : ∀ x ∈ l, ∀ s, (f s x).isSome) (s : σ) : (l.foldlM f s).isSome := by
  induction l generalizing s with
  | nil => rfl
  | cons x l ih =>
    obtain ⟨t, ht⟩ := Option.isSome_iff_exists.mp (h x List.mem_cons_self s)
    rw [List.foldlM_cons, ht, Option.bind_eq_bind, Option.bind_some]
    exact ih (fun y hy => h y (List.mem_cons_of_mem x hy)) t

/-- A loop with a step that always fails does not. -/
theorem foldlM_eq_none {x : α} (hx : x ∈ l) (h : ∀ s, f s x = none) (s : σ) :
    l.foldlM f s = none := by
  induction l generalizing s with
  | nil => exact absurd hx List.not_mem_nil
  | cons y l ih =>
    rw [List.foldlM_cons, Option.bind_eq_bind]
    rcases List.mem_cons.mp hx with rfl | hx
    · rw [h s, Option.bind_none]
    · cases f s y with
      | none => rfl
      | some t => exact ih hx t

end Checked
