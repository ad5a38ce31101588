/-
Lists cut into blocks of one length.

`Blocked k l` says that each block of `k` neighbours, counted from the front, repeats
one element.  A list that grows at its end stays so exactly when an element that does
not open a block repeats the last one (`blocked_snoc`).
-/
import Mathlib.Tactic.Common
import Mathlib.Data.List.Basic

namespace Blocks

variable {α : Type*} {k : ℕ} {l : List α} {a : α}

def Blocked (k : ℕ) (l : List α) : Prop :=
  ∀ (i j : ℕ) (hi : i < l.length) (hj : j < l.length), i / k = j / k → l[i] = l[j]

theorem blocked_nil : Blocked k ([] : List α) := fun i _ hi => absurd hi (Nat.not_lt_zero i)

/-- Inside a block the end of the list is in the block of its last element. -/
theorem div_pred {n : ℕ} (h : n % k ≠ 0) : n / k = (n - 1) / k := by
  rcases n with _ | n
  · exact absurd (Nat.zero_mod k) h
  · rw [Nat.succ_div, if_neg fun hk => h (Nat.mod_eq_zero_of_dvd hk)]
    rfl

/-- What stands in front of a block's first place is in another block. -/
theorem div_ne_of_lt {i n : ℕ} (hi : i < n) (h : n % k = 0) : i / k ≠ n / k := by
  intro heq
  rcases Nat.eq_zero_or_pos k with rfl | hk
  · rw [Nat.mod_zero] at h
    omega
  · have hlt : i < n / k * k := by rwa [Nat.div_mul_cancel (Nat.dvd_of_mod_eq_zero h)]
    exact absurd ((Nat.div_lt_iff_lt_mul hk).mpr hlt) (Nat.not_lt.mpr (Nat.le_of_eq heq.symm))

theorem blocked_snoc (h : Blocked k l) (hlast : l.length % k ≠ 0 → l.getLast? = some a) :
    Blocked k (l ++ [a]) := by
  -- the new element against an older one
  have hnew : ∀ (i : ℕ) (hi : i < l.length), i / k = l.length / k → l[i] = a := by
    intro i hi hik
    by_cases hzero : l.length % k = 0
    · exact absurd hik (div_ne_of_lt hi hzero)
    · have hpred : l.length - 1 < l.length := by omega
      rw [h i (l.length - 1) hi hpred (hik.trans (div_pred hzero))]
      have hsome := hlast hzero
      rw [List.getLast?_eq_getElem?, List.getElem?_eq_getElem hpred] at hsome
      exact Option.some.inj hsome
  intro i j hi hj hij
  rw [List.length_append, List.length_singleton] at hi hj
  rcases Nat.lt_succ_iff_lt_or_eq.mp hi with hi | rfl
  · rcases Nat.lt_succ_iff_lt_or_eq.mp hj with hj | rfl
    · rw [List.getElem_append_left hi, List.getElem_append_left hj]
      exact h i j hi hj hij
    · rw [List.getElem_append_left hi, List.getElem_concat_length rfl]
      exact hnew i hi hij
  · rcases Nat.lt_succ_iff_lt_or_eq.mp hj with hj | rfl
    · rw [List.getElem_append_left hj, List.getElem_concat_length rfl]
      exact (hnew j hj hij.symm).symm
    · rfl

/-- An element that differs from the last one has to open a block. -/
theorem not_blocked_snoc {b : α} (hopen : l.length % k ≠ 0) (hlast : l.getLast? = some b)
    (hne : b ≠ a) : ¬ Blocked k (l ++ [a]) := by
  intro h
  have hpred : l.length - 1 < l.length := by
    rcases l with _ | _
    · exact absurd (Nat.zero_mod k) hopen
    · exact Nat.lt_succ_self _
  have heq := h (l.length - 1) l.length (by rw [List.length_append]; omega)
    (by rw [List.length_append]; exact Nat.lt_succ_self _) (div_pred hopen).symm
  rw [List.getElem_append_left hpred, List.getElem_concat_length rfl] at heq
  rw [List.getLast?_eq_getElem?, List.getElem?_eq_getElem hpred] at hlast
  exact hne ((Option.some.inj hlast).symm.trans heq)

end Blocks
