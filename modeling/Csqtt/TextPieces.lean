/-
Cutting a list of symbols into pieces.

Trimming both ends, cutting at a mark, splitting at separators, joining again, the first
place where a word stands, and the members of a list without their repetitions: over any
alphabet, as `strings` and `str` have them for characters.

* **`trimMatches_eq_self`**: only what begins or ends with the wrong symbol is trimmed;
* **`splitOnP_intercalate`**: pieces without separators come back from their join;
* **`index?_append`**, **`index?_append_of_last`**: what follows moves no first place;
* **`uniq_eq_self`**: exactly the lists without repetition are left alone.
-/
import Mathlib.Data.List.DropRight
import Mathlib.Data.List.Infix

namespace Csqtt.Pieces

variable {α : Type*}

/-- Without the symbols at either end for which `p` holds. -/
def trimMatches (p : α → Bool) (l : List α) : List α := (l.dropWhile p).rdropWhile p

/-- Neither the first nor the last symbol is one that `p` trims. -/
def Bare (p : α → Bool) (l : List α) : Prop :=
  (∀ a ∈ l.head?, p a = false) ∧ (∀ a ∈ l.getLast?, p a = false)

instance (p : α → Bool) (l : List α) : Decidable (Bare p l) :=
  inferInstanceAs (Decidable (_ ∧ _))

/-- A statement about the symbols of a list, by going through the list. -/
theorem forall_mem_of_all {p : α → Prop} [DecidablePred p] {l : List α}
    (h : l.all (fun a => decide (p a)) = true) : ∀ a ∈ l, p a :=
  fun a ha => of_decide_eq_true (List.all_eq_true.mp h a ha)

theorem dropWhile_eq_self {p : α → Bool} {l : List α} :
    l.dropWhile p = l ↔ ∀ a ∈ l.head?, p a = false := by
  cases l with
  | nil => simp
  | cons b l => simp [List.dropWhile_eq_self_iff]

theorem rdropWhile_eq_self {p : α → Bool} {l : List α} :
    l.rdropWhile p = l ↔ ∀ a ∈ l.getLast?, p a = false := by
  rw [List.rdropWhile_eq_self_iff]
  rcases List.eq_nil_or_concat l with rfl | ⟨l, b, rfl⟩
  · simp
  · simp

theorem trimMatches_part (p : α → Bool) (l : List α) : trimMatches p l <:+: l := by
  have hbegins : trimMatches p l <+: l.dropWhile p :=
    List.rdropWhile_prefix p (l := l.dropWhile p)
  exact hbegins.isInfix.trans (List.dropWhile_suffix p).isInfix

theorem trimMatches_eq_self {p : α → Bool} {l : List α} : trimMatches p l = l ↔ Bare p l := by
  refine ⟨fun h => ?_, fun h => ?_⟩
  · -- both steps shorten, so neither did anything
    have hr := (List.rdropWhile_prefix p (l := l.dropWhile p)).length_le
    have hd := (List.dropWhile_suffix p (l := l)).length_le
    have hlen : (trimMatches p l).length = l.length := by rw [h]
    have hhead : l.dropWhile p = l :=
      (List.dropWhile_suffix p).eq_of_length (by unfold trimMatches at hlen; omega)
    have hlast : l.rdropWhile p = l := by
      rw [trimMatches, hhead] at h
      exact h
    exact ⟨dropWhile_eq_self.mp hhead, rdropWhile_eq_self.mp hlast⟩
  · rw [trimMatches, dropWhile_eq_self.mpr h.1, rdropWhile_eq_self.mpr h.2]

theorem trimMatches_bare (p : α → Bool) (l : List α) : Bare p (trimMatches p l) := by
  refine ⟨fun a ha => ?_, rdropWhile_eq_self.mp (List.rdropWhile_idempotent p _)⟩
  have hbegins := List.rdropWhile_prefix p (l := l.dropWhile p)
  have hmem : a ∈ (l.dropWhile p).head? := by
    obtain ⟨tail, htail⟩ := hbegins
    rw [← htail, List.head?_append, show ((l.dropWhile p).rdropWhile p).head? = some a from ha]
    rfl
  have hself : (l.dropWhile p).dropWhile p = l.dropWhile p := List.dropWhile_idempotent p l
  exact dropWhile_eq_self.mp hself a hmem

theorem trimMatches_cons {p : α → Bool} {a : α} (ha : p a = true) (l : List α) :
    trimMatches p (a :: l) = trimMatches p l := by
  rw [trimMatches, List.dropWhile_cons_of_pos ha, trimMatches]

theorem trimMatches_concat {p : α → Bool} {a : α} (ha : p a = true) (l : List α) :
    trimMatches p (l ++ [a]) = trimMatches p l := by
  rw [trimMatches, trimMatches, List.dropWhile_append]
  split
  · rename_i hempty
    rw [List.isEmpty_iff] at hempty
    rw [hempty, List.dropWhile_cons_of_pos ha, List.dropWhile_nil]
  · rw [List.rdropWhile_concat_pos p _ a ha]

/-- What no end of `p` changes, trimming does not change. -/
theorem trimMatches_invariant {β : Type*} {p : α → Bool} {g : List α → β}
    (hcons : ∀ a l, p a = true → g (a :: l) = g l)
    (hconcat : ∀ a l, p a = true → g (l ++ [a]) = g l) (l : List α) :
    g (trimMatches p l) = g l := by
  have hlast : ∀ l, g (l.rdropWhile p) = g l := by
    intro l
    induction l using List.reverseRecOn with
    | nil => rfl
    | append_singleton l a ih =>
      rw [List.rdropWhile_concat]
      split
      · rename_i ha
        rw [ih, hconcat a l ha]
      · rfl
  have hfront : g (l.dropWhile p) = g l := by
    induction l with
    | nil => rfl
    | cons a l ih =>
      rw [List.dropWhile_cons]
      split
      · rename_i ha
        rw [ih, hcons a l ha]
      · rfl
  rw [trimMatches, hlast, hfront]

/-- Behind what is bare only the end is trimmed. -/
theorem trimMatches_append {p : α → Bool} {a : List α} (ha : Bare p a) (hne : a ≠ [])
    (b : List α) : trimMatches p (a ++ b) = a ++ b.rdropWhile p := by
  have hhead : (a ++ b).dropWhile p = a ++ b := by
    rw [dropWhile_eq_self]
    intro c hc
    obtain ⟨d, a, rfl⟩ := List.exists_cons_of_ne_nil hne
    exact ha.1 c hc
  rw [trimMatches, hhead]
  induction b using List.reverseRecOn with
  | nil => simp [rdropWhile_eq_self.mpr ha.2]
  | append_singleton b c ih =>
    have hhead' : (a ++ b).dropWhile p = a ++ b := by
      rw [dropWhile_eq_self]
      intro c hc
      obtain ⟨d, a, rfl⟩ := List.exists_cons_of_ne_nil hne
      exact ha.1 c hc
    rw [← List.append_assoc, List.rdropWhile_concat, List.rdropWhile_concat]
    split
    · exact ih hhead'
    · rw [List.append_assoc]

theorem trimMatches_map {β : Type*} (f : α → β) (p : β → Bool) (l : List α) :
    trimMatches p (l.map f) = (trimMatches (p ∘ f) l).map f := by
  simp only [trimMatches, List.rdropWhile, List.dropWhile_map, ← List.map_reverse]

/-- Up to the first symbol for which `p` holds. -/
def cut (p : α → Bool) (l : List α) : List α := l.takeWhile fun a => !p a

theorem cut_part (p : α → Bool) (l : List α) : cut p l <:+: l :=
  (List.takeWhile_prefix _).isInfix

theorem cut_clean {p : α → Bool} {l : List α} {a : α} (h : a ∈ cut p l) : p a = false := by
  have := List.mem_takeWhile_imp h
  simpa using this

theorem cut_eq_self {p : α → Bool} {l : List α} : cut p l = l ↔ ∀ a ∈ l, p a = false := by
  rw [cut, List.takeWhile_eq_self_iff]
  simp

/-- The cut is made at a mark behind the piece if not within it. -/
theorem cut_append_congr {p q : α → Bool} {a b : List α} (ha : ∀ x ∈ a, p x = q x)
    (hb : ∀ x ∈ b.head?, p x = true) : cut p (a ++ b) = cut q a := by
  induction a with
  | nil =>
    cases b with
    | nil => rfl
    | cons x b => simp [cut, hb x rfl]
  | cons x a ih =>
    have hx := ha x List.mem_cons_self
    have hrest := ih fun y hy => ha y (List.mem_cons_of_mem x hy)
    simp only [cut, List.cons_append, List.takeWhile_cons, hx] at hrest ⊢
    rw [hrest]

theorem cut_append {p : α → Bool} {a b : List α} (ha : ∀ x ∈ a, p x = false)
    (hb : ∀ x ∈ b.head?, p x = true) : cut p (a ++ b) = a := by
  rw [cut_append_congr (fun _ _ => rfl) hb, cut_eq_self.mpr ha]

theorem cut_map {β : Type*} (f : α → β) (p : β → Bool) (l : List α) :
    cut p (l.map f) = (cut (p ∘ f) l).map f := List.takeWhile_map

/-- No piece of a split has a separator in it. -/
theorem mem_splitOnP_clean {p : α → Bool} {l w : List α} (hw : w ∈ l.splitOnP p) :
    ∀ a ∈ w, p a = false := by
  induction l generalizing w with
  | nil =>
    rw [List.splitOnP_nil, List.mem_singleton] at hw
    simp [hw]
  | cons x l ih =>
    rw [List.splitOnP_cons_eq_if_modifyHead] at hw
    obtain ⟨r, rs, hr⟩ := List.exists_cons_of_ne_nil (List.splitOnP_ne_nil p l)
    split at hw
    · rcases List.mem_cons.mp hw with rfl | hw
      · simp
      · exact ih hw
    · rename_i hx
      rw [hr, List.modifyHead_cons] at hw
      rcases List.mem_cons.mp hw with rfl | hw
      · intro a ha
        rcases List.mem_cons.mp ha with rfl | ha
        · simpa using hx
        · exact ih (hr ▸ List.mem_cons_self) a ha
      · exact ih (hr ▸ List.mem_cons_of_mem _ hw)

theorem splitOnP_intercalate {p : α → Bool} {sep : α} (hsep : p sep = true)
    {ls : List (List α)} (hls : ∀ w ∈ ls, ∀ a ∈ w, p a = false) (hne : ls ≠ []) :
    ([sep].intercalate ls).splitOnP p = ls := by
  induction ls with
  | nil => exact absurd rfl hne
  | cons w ls ih =>
    have hw : ∀ a ∈ w, p a = false := hls w List.mem_cons_self
    cases ls with
    | nil => simp [List.splitOnP_eq_singleton hw]
    | cons v ls =>
      have hrest := ih (fun u hu => hls u (List.mem_cons_of_mem _ hu)) (by simp)
      rw [List.intercalate_cons_cons, List.append_assoc, List.singleton_append,
        List.splitOnP_append_cons_of_forall_mem hw sep hsep, hrest]

/-- A symbol at the end belongs to the last piece, unless it separates. -/
theorem splitOnP_concat (p : α → Bool) (l : List α) (a : α) :
    ∃ front last, l.splitOnP p = front ++ [last] ∧
      (l ++ [a]).splitOnP p =
        if p a then front ++ [last, []] else front ++ [last ++ [a]] := by
  induction l with
  | nil =>
    refine ⟨[], [], List.splitOnP_nil, ?_⟩
    rw [List.nil_append, List.splitOnP_cons_eq_if_modifyHead, List.splitOnP_nil]
    rfl
  | cons x l ih =>
    obtain ⟨front, last, hsplit, hconcat⟩ := ih
    rw [List.cons_append, List.splitOnP_cons_eq_if_modifyHead,
      List.splitOnP_cons_eq_if_modifyHead, hsplit, hconcat]
    by_cases hx : p x = true
    · refine ⟨[] :: front, last, by rw [if_pos hx]; rfl, ?_⟩
      rw [if_pos hx]
      split <;> rfl
    · cases front with
      | nil =>
        refine ⟨[], x :: last, by rw [if_neg hx]; rfl, ?_⟩
        rw [if_neg hx]
        split <;> rfl
      | cons w front =>
        refine ⟨(x :: w) :: front, last, by rw [if_neg hx]; rfl, ?_⟩
        rw [if_neg hx]
        split <;> rfl

/-- The pieces between separators, those without symbols left out. -/
def fields (p : α → Bool) (l : List α) : List (List α) :=
  (l.splitOnP p).filter fun w => !w.isEmpty

/-- What is mapped and filtered into itself was fixed throughout. -/
theorem map_filter_eq_self {f : α → α} {p : α → Bool} {l : List α} (h : (l.map f).filter p = l) :
    ∀ a ∈ l, f a = a := by
  have hall : (l.map f).filter p = l.map f :=
    List.filter_sublist.eq_of_length_le (by rw [h, List.length_map])
  have hmap : l.map f = l.map id := by rw [← hall, h, List.map_id]
  exact fun a ha => List.map_inj_left.mp hmap a ha

section Index

variable [DecidableEq α]

/-- How many symbols stand before the first place where `needle` does. -/
def index? (needle : List α) : List α → Option Nat
  | [] => if needle = [] then some 0 else none
  | a :: l => if needle <+: a :: l then some 0 else (index? needle l).map (· + 1)

theorem index?_sound {needle l : List α} {i : Nat} (h : index? needle l = some i) :
    i ≤ l.length ∧ needle <+: l.drop i := by
  induction l generalizing i with
  | nil =>
    simp only [index?] at h
    split at h
    · rename_i hn
      obtain rfl : 0 = i := Option.some.inj h
      simp [hn]
    · cases h
  | cons a l ih =>
    simp only [index?] at h
    split at h
    · rename_i hn
      obtain rfl : 0 = i := Option.some.inj h
      exact ⟨Nat.zero_le _, hn⟩
    · obtain ⟨j, hj, rfl⟩ := Option.map_eq_some_iff.mp h
      obtain ⟨hle, hat⟩ := ih hj
      exact ⟨Nat.succ_le_succ hle, hat⟩

theorem index?_eq_none {needle l : List α} {c : α} (hc : c ∈ needle) (hl : c ∉ l) :
    index? needle l = none := by
  cases hi : index? needle l with
  | none => rfl
  | some i =>
    have hmem : c ∈ l.drop i := (index?_sound hi).2.subset hc
    exact absurd (List.mem_of_mem_drop hmem) hl

/-- A first place stays the first whatever follows. -/
theorem index?_append {needle a : List α} {i : Nat} (h : index? needle a = some i)
    (b : List α) : index? needle (a ++ b) = some i := by
  induction a generalizing i with
  | nil =>
    simp only [index?] at h
    split at h
    · rename_i hn
      subst hn
      cases b <;> simpa [index?] using h
    · cases h
  | cons x a ih =>
    simp only [List.cons_append, index?] at h ⊢
    split at h
    · rename_i hn
      have hpre : needle <+: x :: (a ++ b) := hn.trans (List.prefix_append (x :: a) b)
      rw [if_pos hpre]
      exact h
    · rename_i hn
      obtain ⟨j, hj, rfl⟩ := Option.map_eq_some_iff.mp h
      -- the needle fits into `a`, so that it stands at the front of both or of neither
      have hfits : needle.length ≤ (x :: a).length := by
        have := (index?_sound hj).2.length_le
        rw [List.length_drop] at this
        simp only [List.length_cons]
        omega
      have hnot : ¬ needle <+: x :: (a ++ b) := fun hpre =>
        hn (List.prefix_of_prefix_length_le hpre (List.prefix_append (x :: a) b) hfits)
      rw [if_neg hnot, ih hj, Option.map_some]

/-- What lacks the needle's last symbol holds no part of the needle's end. -/
theorem index?_append_of_last {needle : List α} {c : α} (b : List α) (hb : c ∉ b)
    (a : List α) : index? (needle ++ [c]) (a ++ b) = index? (needle ++ [c]) a := by
  induction a with
  | nil =>
    rw [List.nil_append, index?_eq_none (by simp) hb]
    simp [index?]
  | cons x a ih =>
    have hiff : needle ++ [c] <+: x :: (a ++ b) ↔ needle ++ [c] <+: x :: a := by
      refine ⟨fun h => ?_, fun h => h.trans (List.prefix_append (x :: a) b)⟩
      have hpre : x :: a <+: x :: (a ++ b) := List.prefix_append (x :: a) b
      rcases Nat.le_total (needle ++ [c]).length (x :: a).length with hle | hle
      · exact List.prefix_of_prefix_length_le h hpre hle
      · -- otherwise it would reach into `b` with its last symbol
        obtain ⟨t, ht⟩ := List.prefix_of_prefix_length_le hpre h hle
        rw [← ht] at h ⊢
        have htb : t <+: b := (List.prefix_append_right_inj (x :: a)).mp h
        rcases List.eq_nil_or_concat t with rfl | ⟨t, d, rfl⟩
        · simp
        · have hlast : d = c := by
            rw [List.concat_eq_append, ← List.append_assoc] at ht
            exact List.singleton_inj.mp (List.append_inj' ht rfl).2
          exact absurd (htb.subset (by simp [hlast])) hb
    simp only [List.cons_append, index?, hiff, ih]

/-- A renaming of the symbols moves no place. -/
theorem index?_map {β : Type*} [DecidableEq β] {f : α → β} (hf : Function.Injective f)
    (needle l : List α) : index? (needle.map f) (l.map f) = index? needle l := by
  have hpre : ∀ l : List α, needle.map f <+: l.map f ↔ needle <+: l := fun l => by
    rw [List.prefix_map_iff]
    refine ⟨fun ⟨front, hfront, heq⟩ => ?_, fun h => ⟨needle, h, rfl⟩⟩
    exact List.map_injective_iff.mpr hf heq ▸ hfront
  induction l with
  | nil => simp [index?]
  | cons a l ih =>
    have hiff := hpre (a :: l)
    rw [List.map_cons] at hiff
    simp only [List.map_cons, index?, hiff, ih]

end Index

section Uniq

variable [DecidableEq α]

/-- The members of a list that were not `seen` before, each where it stands first. -/
def uniq (seen : List α) : List α → List α
  | [] => []
  | a :: l => if a ∈ seen then uniq seen l else a :: uniq (a :: seen) l

theorem uniq_sublist (seen l : List α) : (uniq seen l).Sublist l := by
  induction l generalizing seen with
  | nil => exact List.Sublist.refl _
  | cons a l ih =>
    rw [uniq]
    split
    · exact (ih seen).cons a
    · exact (ih (a :: seen)).cons_cons a

theorem uniq_fresh {seen l : List α} {a : α} (h : a ∈ uniq seen l) : a ∉ seen := by
  induction l generalizing seen with
  | nil => simp [uniq] at h
  | cons b l ih =>
    rw [uniq] at h
    split at h
    · exact ih h
    · rename_i hb
      rcases List.mem_cons.mp h with rfl | h
      · exact hb
      · exact fun ha => ih h (List.mem_cons_of_mem b ha)

theorem uniq_nodup (seen l : List α) : (uniq seen l).Nodup := by
  induction l generalizing seen with
  | nil => exact List.nodup_nil
  | cons a l ih =>
    rw [uniq]
    split
    · exact ih seen
    · exact List.nodup_cons.mpr ⟨fun h => uniq_fresh h List.mem_cons_self, ih (a :: seen)⟩

theorem uniq_of_nodup {seen l : List α} (hl : l.Nodup) (hseen : ∀ a ∈ l, a ∉ seen) :
    uniq seen l = l := by
  induction l generalizing seen with
  | nil => rfl
  | cons a l ih =>
    obtain ⟨ha, hl⟩ := List.nodup_cons.mp hl
    rw [uniq, if_neg (hseen a List.mem_cons_self), ih hl]
    intro b hb hmem
    rcases List.mem_cons.mp hmem with rfl | hmem
    · exact ha hb
    · exact hseen b (List.mem_cons_of_mem a hb) hmem

theorem uniq_eq_self {l : List α} : uniq [] l = l ↔ l.Nodup :=
  ⟨fun h => h ▸ uniq_nodup [] l, fun h => uniq_of_nodup h fun _ _ => List.not_mem_nil⟩

end Uniq

end Csqtt.Pieces
