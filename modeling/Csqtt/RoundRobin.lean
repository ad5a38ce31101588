/-
Dealing out groups in turn.

A list is sorted by the path of its elements and then by their number, cut into groups of
one path, and dealt: first the first element of every group, then the second of those that
have one, and so on.

* `deal_perm` — nothing is lost and nothing comes twice;
* `deal_balanced` — at any moment of the deal, two paths that have elements left have given
  the same number of them, up to one;
* `interleave_perm`, `map_interleave` — the result depends on the paths and the numbers
  alone, not on the order of the list.
-/
import Mathlib.Data.List.Sort

namespace RoundRobin

variable {α β π : Type*}

/-! ### Groups -/

section Groups

variable [DecidableEq π] (path : α → π)

/-- The element goes to the last group when it has its path, else it opens one. -/
def push (groups : List (List α)) (a : α) : List (List α) :=
  match groups.getLast? with
  | none => groups ++ [[a]]
  | some group =>
    if (group.head?.map path) = some (path a) then groups.dropLast ++ [group ++ [a]]
    else groups ++ [[a]]

def groupAdjacent (l : List α) : List (List α) := l.foldl (push path) []

end Groups

/-! ### The deal -/

variable {groups : List (List α)} {offset : ℕ}

/-- What the groups have at an offset. -/
def column (groups : List (List α)) (offset : ℕ) : List α := groups.filterMap (·[offset]?)

theorem column_eq_nil_iff :
    column groups offset = [] ↔ ∀ group ∈ groups, group.length ≤ offset := by
  simp [column, List.filterMap_eq_nil_iff]

theorem offset_lt_of_column (h : column groups offset ≠ []) :
    offset < groups.flatten.length := by
  by_contra hlong
  refine h (column_eq_nil_iff.mpr ?_)
  intro group hgroup
  exact Nat.le_trans (List.sublist_flatten_of_mem hgroup).length_le (Nat.le_of_not_lt hlong)

/-- The columns from an offset on, up to the first empty one. -/
def dealFrom (groups : List (List α)) (offset : ℕ) : List α :=
  if _h : column groups offset = [] then []
  else column groups offset ++ dealFrom groups (offset + 1)
termination_by groups.flatten.length - offset
decreasing_by exact Nat.sub_succ_lt_self _ _ (offset_lt_of_column _h)

def deal (groups : List (List α)) : List α := dealFrom groups 0

theorem dealFrom_of_nil (h : column groups offset = []) : dealFrom groups offset = [] := by
  rw [dealFrom, dif_pos h]

theorem dealFrom_of_ne_nil (h : column groups offset ≠ []) :
    dealFrom groups offset = column groups offset ++ dealFrom groups (offset + 1) := by
  rw [dealFrom, dif_neg h]

theorem column_cons (group : List α) (groups : List (List α)) (offset : ℕ) :
    column (group :: groups) offset = group[offset]?.toList ++ column groups offset := by
  rw [column, List.filterMap_cons]
  cases group[offset]? with
  | none => rfl
  | some a => rfl

/-- A column and what follows it are what was left. -/
theorem column_perm (groups : List (List α)) (offset : ℕ) :
    (column groups offset ++ (groups.map (List.drop (offset + 1))).flatten).Perm
      (groups.map (List.drop offset)).flatten := by
  induction groups with
  | nil => exact List.Perm.refl _
  | cons group groups ih =>
    -- what a group has left is its element of the column and the rest
    rw [column_cons, List.map_cons, List.map_cons, List.flatten_cons, List.flatten_cons,
      List.drop_eq_getElem?_toList_append (l := group) (i := offset), List.append_assoc,
      List.append_assoc]
    refine List.Perm.append_left _ ?_
    refine (List.perm_append_comm_assoc _ _ _).trans ?_
    exact List.Perm.append_left _ ih

/-- The deal gives everything that is left at an offset, once. -/
theorem dealFrom_perm (groups : List (List α)) (offset : ℕ) :
    (dealFrom groups offset).Perm (groups.map (List.drop offset)).flatten := by
  induction offset using dealFrom.induct groups with
  | case1 offset hnil =>
    have hempty : (groups.map (List.drop offset)).flatten = [] := by
      rw [List.flatten_eq_nil_iff]
      intro rest hrest
      obtain ⟨group, hgroup, rfl⟩ := List.mem_map.mp hrest
      exact List.drop_eq_nil_of_le (column_eq_nil_iff.mp hnil group hgroup)
    rw [dealFrom_of_nil hnil, hempty]
  | case2 offset hcolumn ih =>
    rw [dealFrom_of_ne_nil hcolumn]
    exact (List.Perm.append_left _ ih).trans (column_perm groups offset)

theorem deal_perm (groups : List (List α)) : (deal groups).Perm groups.flatten := by
  have h := dealFrom_perm groups 0
  rw [show (List.drop 0 : List α → List α) = id from rfl, List.map_id] at h
  exact h

theorem map_column {β : Type*} (f : α → β) (groups : List (List α)) (offset : ℕ) :
    (column groups offset).map f = column (groups.map (List.map f)) offset := by
  rw [column, column, List.map_filterMap, List.filterMap_map]
  congr 1
  funext group
  simp

/-- Renaming the elements does not change the deal. -/
theorem map_dealFrom {β : Type*} (f : α → β) (groups : List (List α)) (offset : ℕ) :
    (dealFrom groups offset).map f = dealFrom (groups.map (List.map f)) offset := by
  induction offset using dealFrom.induct groups with
  | case1 offset hnil =>
    have hnil' : column (groups.map (List.map f)) offset = [] := by
      rw [← map_column, hnil, List.map_nil]
    rw [dealFrom_of_nil hnil, dealFrom_of_nil hnil', List.map_nil]
  | case2 offset hcolumn ih =>
    have hcolumn' : column (groups.map (List.map f)) offset ≠ [] := by
      rw [← map_column]
      intro hnil
      exact hcolumn (List.map_eq_nil_iff.mp hnil)
    rw [dealFrom_of_ne_nil hcolumn, dealFrom_of_ne_nil hcolumn', List.map_append, ih, map_column]

/-! ### Balance -/

section Balance

variable [DecidableEq π] (path : α → π)

/-- How many elements of the path there are. -/
def countPath (p : π) (l : List α) : ℕ := l.countP fun a => path a = p

/-- Groups of one path each, and of different paths. -/
structure Grouped (groups : List (List α)) : Prop where
  same : ∀ group ∈ groups, ∀ a ∈ group, ∀ b ∈ group, path a = path b
  apart : groups.Pairwise fun group group' => ∀ a ∈ group, ∀ b ∈ group', path a ≠ path b

variable {path} {p q : π}

theorem countPath_append (p : π) (l l' : List α) :
    countPath path p (l ++ l') = countPath path p l + countPath path p l' := List.countP_append

theorem countPath_eq_zero {l : List α} (h : ∀ a ∈ l, path a ≠ p) : countPath path p l = 0 := by
  refine List.countP_eq_zero.mpr ?_
  intro a ha
  simp [h a ha]

theorem countPath_eq_length {l : List α} (h : ∀ a ∈ l, path a = p) :
    countPath path p l = l.length := by
  refine List.countP_eq_length.mpr ?_
  intro a ha
  simp [h a ha]

/-- A column has one element of each path that is left. -/
theorem countPath_column (h : Grouped path groups) (p : π) (offset : ℕ) :
    countPath path p (column groups offset) =
      if offset < countPath path p groups.flatten then 1 else 0 := by
  induction groups with
  | nil => rfl
  | cons group groups ih =>
    have hapart := List.pairwise_cons.mp h.apart
    have hrest : Grouped path groups :=
      ⟨fun g hg => h.same g (List.mem_cons_of_mem _ hg), hapart.2⟩
    rw [column_cons, List.flatten_cons, countPath_append, countPath_append, ih hrest]
    by_cases hgroup : ∃ a ∈ group, path a = p
    · -- the group of the path: no other has an element of it
      obtain ⟨a, ha, rfl⟩ := hgroup
      have hsame : ∀ b ∈ group, path b = path a :=
        fun b hb => h.same group List.mem_cons_self b hb a ha
      have hother : countPath path (path a) groups.flatten = 0 := by
        refine countPath_eq_zero ?_
        intro b hb
        obtain ⟨g, hg, hbg⟩ := List.mem_flatten.mp hb
        exact (hapart.1 g hg a ha b hbg).symm
      rw [hother, countPath_eq_length hsame, if_neg (Nat.not_lt_zero _), Nat.add_zero, Nat.add_zero]
      by_cases hlength : offset < group.length
      · rw [if_pos hlength, List.getElem?_eq_getElem hlength, Option.toList_some,
          countPath_eq_length, List.length_singleton]
        intro b hb
        rw [List.mem_singleton.mp hb]
        exact hsame _ (List.getElem_mem hlength)
      · rw [if_neg hlength, List.getElem?_eq_none (Nat.le_of_not_lt hlength)]
        rfl
    · -- the group has nothing of the path, so the others decide
      have hnone : ∀ b ∈ group, path b ≠ p := fun b hb hb' => hgroup ⟨b, hb, hb'⟩
      have hhead : countPath path p group[offset]?.toList = 0 := by
        refine countPath_eq_zero ?_
        intro b hb
        exact hnone b (List.mem_of_getElem? (Option.mem_toList.mp hb))
      rw [hhead, countPath_eq_zero hnone, Nat.zero_add, Nat.zero_add]

/-- A part of the deal ends inside a column: each path has given one element for each
column before it that it reaches into, and maybe the one of that column. -/
theorem countPath_prefix (h : Grouped path groups) (offset : ℕ) {taken : List α}
    (htaken : taken <+: dealFrom groups offset) :
    ∃ stop, offset ≤ stop ∧ ∀ p, ∃ extra, extra ≤ 1 ∧
      (countPath path p groups.flatten ≤ stop → extra = 0) ∧
      countPath path p taken + min offset (countPath path p groups.flatten) =
        min stop (countPath path p groups.flatten) + extra := by
  induction offset using dealFrom.induct groups generalizing taken with
  | case1 offset hnil =>
    rw [dealFrom_of_nil hnil, List.prefix_nil] at htaken
    refine ⟨offset, Nat.le_refl _, ?_⟩
    intro p
    refine ⟨0, Nat.zero_le _, fun _ => rfl, ?_⟩
    rw [htaken]
    exact Nat.zero_add _
  | case2 offset hcolumn ih =>
    rw [dealFrom_of_ne_nil hcolumn] at htaken
    obtain ⟨rest, hrest⟩ := htaken
    rcases List.append_eq_append_iff.mp hrest with ⟨left, hinside, -⟩ | ⟨taken', rfl, hafter⟩
    · -- it ends inside this column
      refine ⟨offset, Nat.le_refl _, ?_⟩
      intro p
      have hcount := countPath_column h p offset
      rw [hinside, countPath_append] at hcount
      refine ⟨countPath path p taken, ?_, ?_, Nat.add_comm _ _⟩
      · split_ifs at hcount <;> omega
      · intro hexhausted
        rw [if_neg (Nat.not_lt_of_le hexhausted)] at hcount
        omega
    · -- it goes on after this column, which has one of each path that is left
      obtain ⟨stop, hstop, hpaths⟩ := ih ⟨rest, hafter.symm⟩
      refine ⟨stop, Nat.le_of_succ_le hstop, ?_⟩
      intro p
      obtain ⟨extra, hextra, hexhausted, hcount⟩ := hpaths p
      refine ⟨extra, hextra, hexhausted, ?_⟩
      rw [countPath_append, countPath_column h]
      split_ifs <;> omega

/-- No path with elements left is more than one ahead of another. -/
theorem deal_balanced (h : Grouped path groups) {taken : List α} (htaken : taken <+: deal groups)
    (hp : countPath path p taken < countPath path p (deal groups))
    (hq : countPath path q taken < countPath path q (deal groups)) :
    countPath path p taken ≤ countPath path q taken + 1 := by
  -- a path with elements left reaches beyond the column where the part ends
  obtain ⟨stop, -, hpaths⟩ := countPath_prefix h 0 htaken
  have htotal : ∀ p, countPath path p (deal groups) = countPath path p groups.flatten :=
    fun p => (deal_perm groups).countP_eq _
  rw [htotal] at hp hq
  obtain ⟨extra, hextra, hnone, hcount⟩ := hpaths p
  obtain ⟨extra', hextra', hnone', hcount'⟩ := hpaths q
  omega

end Balance

/-! ### The groups of a sorted list -/

section Sorted

theorem push_concat [DecidableEq π] (path : α → π) (groups : List (List α)) (group : List α)
    (a : α) :
    push path (groups ++ [group]) a =
      if group.head?.map path = some (path a) then groups ++ [group ++ [a]]
      else groups ++ [group] ++ [[a]] := by
  rw [push, List.getLast?_concat]
  simp only [List.dropLast_concat]

theorem map_push [DecidableEq π] {β : Type*} (path : β → π) (f : α → β) (groups : List (List α))
    (a : α) :
    (push (path ∘ f) groups a).map (List.map f) = push path (groups.map (List.map f)) (f a) := by
  rcases List.eq_nil_or_concat groups with rfl | ⟨init, group, rfl⟩
  · rfl
  · rw [List.concat_eq_append, push_concat, List.map_append, List.map_singleton, push_concat,
      List.head?_map, Option.map_map, Function.comp_apply]
    by_cases hsame : group.head?.map (path ∘ f) = some (path (f a))
    · rw [if_pos hsame, if_pos hsame]
      simp
    · rw [if_neg hsame, if_neg hsame]
      simp

theorem map_groupAdjacent [DecidableEq π] {β : Type*} (path : β → π) (f : α → β) (l : List α) :
    (groupAdjacent (path ∘ f) l).map (List.map f) = groupAdjacent path (l.map f) := by
  have hfold : ∀ groups : List (List α),
      (l.foldl (push (path ∘ f)) groups).map (List.map f) =
        (l.map f).foldl (push path) (groups.map (List.map f)) := by
    induction l with
    | nil =>
      intro groups
      rfl
    | cons a l ih =>
      intro groups
      rw [List.foldl_cons, ih, map_push, List.map_cons, List.foldl_cons]
  exact hfold []

variable [LinearOrder π] {path : α → π}

/-- What the loop over a sorted list has made of the elements so far. -/
structure Cut (path : α → π) (groups : List (List α)) : Prop extends Grouped path groups where
  ne_nil : ∀ group ∈ groups, group ≠ []

/-- An element that opens a group is beyond all paths so far. -/
theorem path_ne_of_sorted {init : List (List α)} {group : List α} {a head : α}
    (hsorted : ((init ++ [group]).flatten ++ [a]).Pairwise fun b c => path b ≤ path c)
    (hhead : head ∈ group) (hnew : path head ≠ path a) {b : α} (hb : b ∈ init.flatten) :
    path b ≠ path a := by
  rw [List.flatten_append, List.flatten_singleton, List.append_assoc,
    List.pairwise_append] at hsorted
  have hfirst : path b ≤ path head :=
    hsorted.2.2 b hb head (List.mem_append_left _ hhead)
  have hlast : path head ≤ path a :=
    (List.pairwise_append.mp hsorted.2.1).2.2 head hhead a (List.mem_singleton_self a)
  exact ne_of_lt (lt_of_le_of_lt hfirst (lt_of_le_of_ne hlast hnew))

theorem Cut.push {a : α} (h : Cut path groups)
    (hsorted : (groups.flatten ++ [a]).Pairwise fun b c => path b ≤ path c) :
    Cut path (push path groups a) ∧ (push path groups a).flatten = groups.flatten ++ [a] := by
  rcases List.eq_nil_or_concat groups with rfl | ⟨init, group, rfl⟩
  · refine ⟨⟨⟨?_, List.pairwise_singleton _ _⟩, ?_⟩, rfl⟩
    · intro group hgroup b hb c hc
      rw [List.mem_singleton.mp hgroup] at hb hc
      rw [List.mem_singleton.mp hb, List.mem_singleton.mp hc]
    · intro group hgroup
      rw [List.mem_singleton.mp hgroup]
      exact List.cons_ne_nil _ _
  · rw [List.concat_eq_append] at h hsorted ⊢
    have hlast : group ∈ init ++ [group] := List.mem_append_right _ (List.mem_singleton_self _)
    have hold := List.pairwise_append.mp h.apart
    obtain ⟨head, tail, hgroup⟩ := List.exists_cons_of_ne_nil (h.ne_nil group hlast)
    have hhead : head ∈ group := by
      rw [hgroup]
      exact List.mem_cons_self
    have hcond : group.head?.map path = some (path a) ↔ path head = path a := by
      simp [hgroup]
    rw [push_concat]
    by_cases hsame : path head = path a
    · -- the element joins the last group
      have hall : ∀ b ∈ group ++ [a], path b = path a := by
        intro b hb
        rcases List.mem_append.mp hb with hb | hb
        · exact (h.same group hlast b hb head hhead).trans hsame
        · rw [List.mem_singleton.mp hb]
      rw [if_pos (hcond.mpr hsame)]
      refine ⟨⟨⟨?_, ?_⟩, ?_⟩, by simp⟩
      · intro g hg b hb c hc
        rcases List.mem_append.mp hg with hg | hg
        · exact h.same g (List.mem_append_left _ hg) b hb c hc
        · rw [List.mem_singleton.mp hg] at hb hc
          rw [hall b hb, hall c hc]
      · refine List.pairwise_append.mpr ⟨hold.1, List.pairwise_singleton _ _, ?_⟩
        intro g hg g' hg' b hb c hc
        rw [List.mem_singleton.mp hg'] at hc
        rw [hall c hc, ← hsame]
        exact hold.2.2 g hg group (List.mem_singleton_self _) b hb head hhead
      · intro g hg
        rcases List.mem_append.mp hg with hg | hg
        · exact h.ne_nil g (List.mem_append_left _ hg)
        · rw [List.mem_singleton.mp hg]
          exact List.append_ne_nil_of_right_ne_nil _ (List.cons_ne_nil _ _)
    · -- it opens a group of its own
      rw [if_neg fun h' => hsame (hcond.mp h')]
      refine ⟨⟨⟨?_, ?_⟩, ?_⟩, by simp⟩
      · intro g hg b hb c hc
        rcases List.mem_append.mp hg with hg | hg
        · exact h.same g hg b hb c hc
        · rw [List.mem_singleton.mp hg] at hb hc
          rw [List.mem_singleton.mp hb, List.mem_singleton.mp hc]
      · refine List.pairwise_append.mpr ⟨h.apart, List.pairwise_singleton _ _, ?_⟩
        intro g hg g' hg' b hb c hc
        rw [List.mem_singleton.mp hg', List.mem_singleton] at hc
        rw [hc]
        rcases List.mem_append.mp hg with hg | hg
        · exact path_ne_of_sorted hsorted hhead hsame (List.mem_flatten_of_mem hg hb)
        · rw [List.mem_singleton.mp hg] at hb
          rw [h.same group hlast b hb head hhead]
          exact hsame
      · intro g hg
        rcases List.mem_append.mp hg with hg | hg
        · exact h.ne_nil g hg
        · rw [List.mem_singleton.mp hg]
          exact List.cons_ne_nil _ _

/-- The groups of a sorted list are its elements, one path each. -/
theorem groupAdjacent_sorted {l : List α} (hsorted : l.Pairwise fun b c => path b ≤ path c) :
    Cut path (groupAdjacent path l) ∧ (groupAdjacent path l).flatten = l := by
  have hfold : ∀ groups : List (List α), Cut path groups →
      (groups.flatten ++ l).Pairwise (fun b c => path b ≤ path c) →
      Cut path (l.foldl (RoundRobin.push path) groups) ∧
        (l.foldl (RoundRobin.push path) groups).flatten = groups.flatten ++ l := by
    clear hsorted
    induction l with
    | nil =>
      intro groups h _
      exact ⟨h, (List.append_nil _).symm⟩
    | cons a l ih =>
      intro groups h hsorted
      rw [← List.singleton_append, ← List.append_assoc] at hsorted
      obtain ⟨hcut, hflatten⟩ := h.push (List.pairwise_append.mp hsorted).1
      rw [← hflatten] at hsorted
      obtain ⟨hcut', hflatten'⟩ := ih _ hcut hsorted
      refine ⟨hcut', ?_⟩
      rw [List.foldl_cons, hflatten', hflatten, List.append_assoc, List.singleton_append]
  have hnil : Cut path ([] : List (List α)) := by
    refine ⟨⟨?_, List.Pairwise.nil⟩, ?_⟩
    · intro group hgroup
      exact absurd hgroup List.not_mem_nil
    · intro group hgroup
      exact absurd hgroup List.not_mem_nil
  exact hfold [] hnil hsorted

/-! ### The whole -/

/-- By path, and then by number. -/
def Before (path : α → π) (number : α → ℕ) (a b : α) : Prop :=
  path a < path b ∨ path a = path b ∧ number a ≤ number b

instance (path : α → π) (number : α → ℕ) : DecidableRel (Before path number) :=
  fun _ _ => inferInstanceAs (Decidable (_ ∨ _))

variable {number : α → ℕ}

instance : Std.Total (Before path number) where
  total a b := by
    rcases lt_trichotomy (path a) (path b) with hlt | heq | hgt
    · exact Or.inl (Or.inl hlt)
    · rcases Nat.le_total (number a) (number b) with hle | hle
      · exact Or.inl (Or.inr ⟨heq, hle⟩)
      · exact Or.inr (Or.inr ⟨heq.symm, hle⟩)
    · exact Or.inr (Or.inl hgt)

instance : IsTrans α (Before path number) where
  trans a b c := by
    rintro (hab | ⟨hab, hnumber⟩) (hbc | ⟨hbc, hnumber'⟩)
    · exact Or.inl (lt_trans hab hbc)
    · exact Or.inl (hbc ▸ hab)
    · exact Or.inl (hab ▸ hbc)
    · exact Or.inr ⟨hab.trans hbc, Nat.le_trans hnumber hnumber'⟩

theorem Before.path_le {a b : α} (h : Before path number a b) : path a ≤ path b := by
  rcases h with hlt | ⟨heq, -⟩
  · exact le_of_lt hlt
  · exact le_of_eq heq

theorem Before.antisymm {a b : α} (h : Before path number a b) (h' : Before path number b a) :
    path a = path b ∧ number a = number b := by
  have hpath := le_antisymm h.path_le h'.path_le
  rcases h with hlt | ⟨-, hle⟩
  · exact absurd hpath (ne_of_lt hlt)
  · rcases h' with hlt | ⟨-, hle'⟩
    · exact absurd hpath (ne_of_gt hlt)
    · exact ⟨hpath, Nat.le_antisymm hle hle'⟩

/-- Sorted, grouped and dealt. -/
def interleave (path : α → π) (number : α → ℕ) (l : List α) : List α :=
  deal (groupAdjacent path (l.insertionSort (Before path number)))

theorem sorted_paths (path : α → π) (number : α → ℕ) (l : List α) :
    (l.insertionSort (Before path number)).Pairwise fun b c => path b ≤ path c :=
  (List.pairwise_insertionSort (Before path number) l).imp Before.path_le

theorem interleave_perm_self (path : α → π) (number : α → ℕ) (l : List α) :
    (interleave path number l).Perm l := by
  refine (deal_perm _).trans ?_
  rw [(groupAdjacent_sorted (sorted_paths path number l)).2]
  exact List.perm_insertionSort _ l

theorem interleave_balanced (path : α → π) (number : α → ℕ) (l : List α) {taken : List α}
    (htaken : taken <+: interleave path number l) {p q : π}
    (hp : countPath path p taken < countPath path p (interleave path number l))
    (hq : countPath path q taken < countPath path q (interleave path number l)) :
    countPath path p taken ≤ countPath path q taken + 1 :=
  deal_balanced (groupAdjacent_sorted (sorted_paths path number l)).1.toGrouped htaken hp hq

/-- The order of the list does not matter, where path and number tell its elements apart. -/
theorem interleave_perm {l l' : List α} (h : l.Perm l')
    (happart : ∀ a ∈ l, ∀ b ∈ l, path a = path b → number a = number b → a = b) :
    interleave path number l = interleave path number l' := by
  have hsort : l.insertionSort (Before path number) = l'.insertionSort (Before path number) := by
    refine List.Perm.eq_of_pairwise ?_ (List.pairwise_insertionSort _ l)
      (List.pairwise_insertionSort _ l')
      ((List.perm_insertionSort _ l).trans (h.trans (List.perm_insertionSort _ l').symm))
    intro a b ha hb hab hba
    obtain ⟨hpath, hnumber⟩ := hab.antisymm hba
    rw [List.mem_insertionSort] at ha hb
    exact happart a ha b (h.mem_iff.mpr hb) hpath hnumber
  rw [interleave, hsort, interleave]

/-- It is enough to look at paths and numbers. -/
theorem map_interleave {β : Type*} (path : β → π) (number : β → ℕ) (f : α → β) (l : List α) :
    (interleave (path ∘ f) (number ∘ f) l).map f = interleave path number (l.map f) := by
  have hsort : (l.insertionSort (Before (path ∘ f) (number ∘ f))).map f =
      (l.map f).insertionSort (Before path number) :=
    List.map_insertionSort _ _ f l fun _ _ _ _ => Iff.rfl
  rw [interleave, deal, map_dealFrom, map_groupAdjacent, hsort, interleave, deal]

end Sorted

end RoundRobin
