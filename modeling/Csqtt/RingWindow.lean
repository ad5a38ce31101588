/-
A sliding window over a ring of `n` flags.

Counter `c` uses the flag `c % n`.  `Covers n bit S H` says that the flags tell,
for the last `n` counters up to `H`, which of them are in the set `S`; what lies
further back is forgotten.  The lemmas say what happens to the set when a flag is
raised, when the window advances over flags that were cleared, and when it jumps
further than its own length.
-/
import Mathlib.Data.Set.Insert
import Mathlib.Data.Nat.ModEq

namespace RingWindow

variable {n : ℕ} {bit bit' : ℕ → Bool} {S S' : Set ℕ} {H c d : ℕ}

structure Covers (n : ℕ) (bit : ℕ → Bool) (S : Set ℕ) (H : ℕ) : Prop where
  le : ∀ c ∈ S, c ≤ H
  bit_iff : ∀ c, c ≤ H → H < c + n → (bit (c % n) = true ↔ c ∈ S)

/-- Two counters of one window that share a flag are the same. -/
theorem eq_of_mod_eq (h : c % n = d % n) (hcd : c < d + n) (hdc : d < c + n) : c = d := by
  wlog hle : c ≤ d generalizing c d
  · exact (this h.symm hdc hcd (Nat.le_of_not_le hle)).symm
  have hdvd : n ∣ d - c := (Nat.modEq_iff_dvd' hle).mp h
  have := Nat.eq_zero_of_dvd_of_lt hdvd (by omega)
  omega

/-- The set may be changed behind the window. -/
theorem Covers.congr (h : Covers n bit S H) (hle : ∀ c ∈ S', c ≤ H)
    (hS : ∀ c, c ≤ H → H < c + n → (c ∈ S' ↔ c ∈ S)) : Covers n bit S' H :=
  ⟨hle, fun c hc hn => (h.bit_iff c hc hn).trans (hS c hc hn).symm⟩

theorem Covers.singleton (hbit : ∀ k, bit k = true ↔ k = c % n) : Covers n bit {c} c := by
  refine ⟨fun d hd => Nat.le_of_eq hd, fun d hd hn => ?_⟩
  rw [hbit]
  constructor
  · intro h
    exact eq_of_mod_eq h (by omega) (by omega)
  · rintro rfl
    rfl

/-- Raising a flag of the window. -/
theorem Covers.raise (h : Covers n bit S H) (hc : c ≤ H) (hn : H < c + n)
    (hbit : ∀ k, bit' k = true ↔ k = c % n ∨ bit k = true) :
    Covers n bit' (insert c S) H := by
  refine ⟨fun d hd => ?_, fun d hd hdn => ?_⟩
  · rcases hd with rfl | hd
    · exact hc
    · exact h.le d hd
  · rw [hbit, h.bit_iff d hd hdn, Set.mem_insert_iff]
    refine or_congr_left ⟨fun hmod => ?_, fun heq => by rw [heq]⟩
    exact eq_of_mod_eq hmod (by omega) (by omega)

/-- The window advances to `c`; the flags of the counters it takes in are cleared
before that of `c` is raised. -/
theorem Covers.advance (h : Covers n bit S H) (hc : H < c) (hn : c < H + n)
    (hbit : ∀ k, bit' k = true ↔ k = c % n ∨ bit k = true ∧ ∀ i, H < i → i ≤ c → k ≠ i % n) :
    Covers n bit' (insert c S) c := by
  refine ⟨fun d hd => ?_, fun d hd hdn => ?_⟩
  · rcases hd with rfl | hd
    · exact Nat.le_refl _
    · exact Nat.le_of_lt (Nat.lt_of_le_of_lt (h.le d hd) hc)
  · rw [hbit, Set.mem_insert_iff]
    refine or_congr ⟨fun hmod => eq_of_mod_eq hmod (by omega) (by omega), fun heq => by rw [heq]⟩ ?_
    by_cases hdH : d ≤ H
    · rw [← h.bit_iff d hdH (by omega), and_iff_left_iff_imp]
      intro _ i hi hic hmod
      have := eq_of_mod_eq hmod (by omega) (by omega)
      omega
    · -- a counter between the two was never in the set
      refine ⟨fun hb => absurd rfl (hb.2 d (by omega) hd), fun hS => ?_⟩
      exact absurd (h.le d hS) hdH

/-- The window jumps past everything it covered. -/
theorem Covers.jump (h : Covers n bit S H) (hc : H + n ≤ c)
    (hbit : ∀ k, bit' k = true ↔ k = c % n) : Covers n bit' (insert c S) c := by
  refine (Covers.singleton hbit).congr (fun d hd => ?_) fun d _ hdn => ?_
  · rcases hd with rfl | hd
    · exact Nat.le_refl _
    · have := h.le d hd
      omega
  · rw [Set.mem_insert_iff, Set.mem_singleton_iff, or_iff_left_iff_imp]
    intro hd
    have := h.le d hd
    omega

end RingWindow
