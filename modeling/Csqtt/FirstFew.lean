/-
The first few elements of each class of a list.

`firstOf n f l` says of each element of `l` whether it is among the first `n` of those with
its value of `f`.  A limit that is counted by a coarser value `key` gives the same answers
exactly when each key is taken at most `n` times, or by one class only
(`firstOf_key_iff`).
-/
import Mathlib.Data.List.Induction
import Mathlib.Data.List.Count
import Mathlib.Order.Basic
import Mathlib.Tactic.Common

namespace FirstFew

variable {α β κ : Type*} [DecidableEq β] [DecidableEq κ]

def firstOf (n : ℕ) (f : α → β) (l : List α) : List Bool :=
  l.mapIdx fun i a => (l.take i).countP (f · = f a) < n

@[simp] theorem firstOf_nil (n : ℕ) (f : α → β) : firstOf n f [] = [] := rfl

theorem firstOf_snoc (n : ℕ) (f : α → β) (l : List α) (a : α) :
    firstOf n f (l ++ [a]) = firstOf n f l ++ [decide (l.countP (f · = f a) < n)] := by
  rw [firstOf, List.mapIdx_concat, List.take_left' rfl]
  congr 1
  refine List.mapIdx_eq_mapIdx_iff.mpr fun i hi => ?_
  rw [List.take_append_of_le_length (Nat.le_of_lt hi)]

theorem countP_snoc (f : α → β) (l : List α) (a : α) (b : β) :
    (l ++ [a]).countP (f · = b) = l.countP (f · = b) + if f a = b then 1 else 0 := by
  rw [List.countP_append, List.countP_singleton]
  simp only [decide_eq_true_eq]

/-- Each key is taken at most `n` times, or by one value of `f` only. -/
def Apart (n : ℕ) (f : α → β) (key : α → κ) (l : List α) : Prop :=
  ∀ k, l.countP (key · = k) ≤ n ∨ ∀ a ∈ l, ∀ b ∈ l, key a = k → key b = k → f a = f b

section Coarser

variable {f : α → β} {key : α → κ} (hkey : ∀ a b, f a = f b → key a = key b) {n : ℕ} {l : List α}
  {a : α}

include hkey

theorem countP_le_key : l.countP (f · = f a) ≤ l.countP (key · = key a) := by
  refine List.countP_mono_left fun b _ hb => ?_
  rw [decide_eq_true_eq] at hb ⊢
  exact hkey b a hb

/-- Where all with the key are of one class, they are counted with it. -/
theorem countP_key_of_same (h : ∀ b ∈ l, key b = key a → f b = f a) :
    l.countP (key · = key a) = l.countP (f · = f a) := by
  refine List.countP_congr fun b hb => ?_
  rw [decide_eq_true_eq, decide_eq_true_eq]
  exact ⟨h b hb, hkey b a⟩

/-- And where they are counted with it, all with the key are of the class. -/
theorem same_of_countP (h : l.countP (key · = key a) ≤ l.countP (f · = f a)) :
    ∀ b ∈ l, key b = key a → f b = f a := by
  intro b hb hkb
  by_contra hne
  have hsplit := List.countP_eq_countP_filter_add l (key · = key a) (f · = f a)
  have hfine : (l.filter (f · = f a)).countP (key · = key a) = l.countP (f · = f a) := by
    rw [List.countP_filter]
    refine List.countP_congr fun x _ => ?_
    rw [Bool.and_eq_true, decide_eq_true_eq, decide_eq_true_eq]
    exact ⟨And.right, fun hx => ⟨hkey x a hx, hx⟩⟩
  have hother : 0 < (l.filter fun x => !decide (f x = f a)).countP (key · = key a) := by
    refine List.countP_pos_iff.mpr ⟨b, List.mem_filter.mpr ⟨hb, ?_⟩, decide_eq_true hkb⟩
    rw [decide_eq_false hne]
    rfl
  omega

/-- An element more: it must not be the first to be held back by those of other classes. -/
theorem apart_snoc_iff (hn : 0 < n) : Apart n f key (l ++ [a]) ↔
    Apart n f key l ∧ (l.countP (f · = f a) < n → l.countP (key · = key a) < n) := by
  have hlast : a ∈ l ++ [a] := List.mem_append_right _ (List.mem_singleton_self a)
  constructor
  · intro h
    refine ⟨fun k => ?_, fun hfine => ?_⟩
    · refine (h k).imp (fun hle => ?_) fun hsame b hb c hc => ?_
      · rw [countP_snoc] at hle
        exact Nat.le_trans (Nat.le_add_right _ _) hle
      · exact hsame b (List.mem_append_left _ hb) c (List.mem_append_left _ hc)
    · rcases h (key a) with hle | hsame
      · rw [countP_snoc, if_pos rfl] at hle
        exact hle
      · rwa [countP_key_of_same hkey fun b hb hkb =>
          hsame b (List.mem_append_left _ hb) a hlast hkb rfl]
  · rintro ⟨h, hstep⟩ k
    by_cases hk : key a = k
    · subst hk
      rw [countP_snoc, if_pos rfl]
      rcases Nat.lt_or_ge (l.countP (key · = key a)) n with hroom | hfull
      · exact .inl hroom
      · -- the class of the new element is full too, and it is the only one with the key
        have hfine : n ≤ l.countP (f · = f a) := by
          by_contra hlt
          exact absurd (hstep (Nat.lt_of_not_le hlt)) (Nat.not_lt.mpr hfull)
        have hall : ∀ b ∈ l, key b = key a → f b = f a := by
          rcases h (key a) with hle | hsame
          · exact same_of_countP hkey (Nat.le_trans hle hfine)
          · obtain ⟨c, hc, hfc⟩ := List.countP_pos_iff.mp (Nat.lt_of_lt_of_le hn hfine)
            rw [decide_eq_true_eq] at hfc
            intro b hb hkb
            exact (hsame b hb c hc hkb (hkey c a hfc)).trans hfc
        have hall' : ∀ b ∈ l ++ [a], key b = key a → f b = f a := by
          intro b hb hkb
          rcases List.mem_append.mp hb with hb | hb
          · exact hall b hb hkb
          · rw [List.mem_singleton.mp hb]
        exact .inr fun b hb c hc hkb hkc => (hall' b hb hkb).trans (hall' c hc hkc).symm
    · rw [countP_snoc, if_neg hk, Nat.add_zero]
      have hold : ∀ b ∈ l ++ [a], key b = k → b ∈ l := by
        intro b hb hkb
        refine (List.mem_append.mp hb).resolve_right fun hnew => hk ?_
        rwa [← List.mem_singleton.mp hnew]
      exact (h k).imp_right fun hsame b hb c hc hkb hkc =>
        hsame b (hold b hb hkb) c (hold c hc hkc) hkb hkc

theorem firstOf_key_iff (hn : 0 < n) : firstOf n key l = firstOf n f l ↔ Apart n f key l := by
  induction l using List.reverseRecOn with
  | nil => exact iff_of_true rfl fun k => .inl (Nat.zero_le n)
  | append_singleton l a ih =>
    rw [apart_snoc_iff hkey hn, ← ih, firstOf_snoc, firstOf_snoc]
    constructor
    · intro heq
      obtain ⟨hinit, hlast⟩ := List.append_inj' heq rfl
      refine ⟨hinit, fun hfine => ?_⟩
      rwa [decide_eq_true hfine, List.singleton_inj, decide_eq_true_eq] at hlast
    · rintro ⟨hinit, hstep⟩
      have hiff : l.countP (key · = key a) < n ↔ l.countP (f · = f a) < n :=
        ⟨fun hlt => Nat.lt_of_le_of_lt (countP_le_key hkey) hlt, hstep⟩
      rw [hinit, decide_eq_decide.mpr hiff]

end Coarser

end FirstFew
