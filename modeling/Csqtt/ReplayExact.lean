/-
Exactness of the replay window under bounded reordering.

A sender numbers its packets consecutively and puts the index modulo `2 ^ 16` in
the header; the deliveries are reordered and repeated, each within a window of
the highest index so far.  The window should accept each index once.

The first packet seeds the counter with its 16-bit sequence number, so the
counters have no room below the first packet's block of `2 ^ 16` indices.  The
first late packet from the block before is taken for one from almost a turn
ahead, and from then on all counters are one turn higher.

* `delivered_again_across_block` — the index before a block border between two
  deliveries of the index on it;
* `exact_iff` — the window is exact on a delivery order exactly when no index
  is delivered both before and after the first packet from an earlier block
  (and at most one index reaches the end of the 64-bit counter).

`Phase` is the invariant between two such shifts: the counters accepted are the
delivered indices less a common base.
-/
import Csqtt.ReplayWindow

open RingWindow

namespace Csqtt.Replay

/-! ### The statement -/

/-- The answers of `accept_rtp` to a sequence of deliveries. -/
def deliver : ReplayWindow → List ℕ → List Bool
  | _, [] => []
  | w, d :: ds =>
    (w.acceptRtp (BitVec.ofNat 16 d)).2 :: deliver (w.acceptRtp (BitVec.ofNat 16 d)).1 ds

/-- The right answers: `true` for the first delivery of each index. -/
def firsts (before : List ℕ) : List ℕ → List Bool
  | [] => []
  | d :: ds => decide (d ∉ before) :: firsts (d :: before) ds

/-- Each delivery is within a window of the highest index before it. -/
def Near (highest : ℕ) : List ℕ → Prop
  | [] => True
  | d :: ds => highest < d + windowSize ∧ d < highest + windowSize ∧ Near (max highest d) ds

def BoundedReordering : List ℕ → Prop
  | [] => True
  | d :: ds => Near d ds

instance decidableNear : (highest : ℕ) → (ds : List ℕ) → Decidable (Near highest ds)
  | _, [] => isTrue trivial
  | highest, d :: ds =>
    have := decidableNear (max highest d) ds
    inferInstanceAs (Decidable (highest < d + windowSize ∧ d < highest + windowSize ∧ _))

instance : (ds : List ℕ) → Decidable (BoundedReordering ds)
  | [] => isTrue trivial
  | d :: ds => decidableNear d ds

def Exact (ds : List ℕ) : Prop := deliver ReplayWindow.default ds = firsts [] ds

/-- Where the first packet's block of `2 ^ 16` indices begins. -/
def block : List ℕ → ℕ
  | [] => 0
  | d :: _ => d / 2 ^ 16 * 2 ^ 16

/-- The deliveries before the first one from an earlier block. -/
def inBlock (ds : List ℕ) : List ℕ := ds.takeWhile (block ds ≤ ·)

/-- That delivery and what follows it. -/
def afterBlock (ds : List ℕ) : List ℕ := ds.dropWhile (block ds ≤ ·)

/-- At most one index is so far above `base` that its counter is `u64::MAX`. -/
def OneSaturated (base : ℕ) (ds : List ℕ) : Prop :=
  ∀ x ∈ ds, ∀ y ∈ ds, base + u64Max ≤ x → base + u64Max ≤ y → x = y

structure KeepsBlock (ds : List ℕ) : Prop where
  noneAgain : ∀ d ∈ afterBlock ds, d ∉ inBlock ds
  oneSaturated : OneSaturated (if afterBlock ds = [] then block ds else block ds - 2 ^ 16) ds

/-! ### Between two shifts -/

/-- The counters of the indices `ds` over a base. -/
def counters (base : ℕ) (ds : List ℕ) : Set ℕ := { c | ∃ d ∈ ds, c = min (d - base) u64Max }

theorem counters_cons (base d : ℕ) (ds : List ℕ) :
    counters base (d :: ds) = insert (min (d - base) u64Max) (counters base ds) := by
  ext c
  simp [counters]

theorem counters_singleton (base d : ℕ) : counters base [d] = {min (d - base) u64Max} := by
  ext c
  simp [counters]

/-- The window stands for the indices `ds` delivered since the last shift, over
the base of that shift; `highest` is the highest index of all deliveries. -/
structure Phase (base highest : ℕ) (ds : List ℕ) (w : ReplayWindow) : Prop where
  aligned : base % 2 ^ 16 = 0
  base_le : ∀ d ∈ ds, base ≤ d
  le_highest : ∀ d ∈ ds, d ≤ highest
  top : ∃ m ∈ ds, (∀ d ∈ ds, d ≤ m) ∧ highest < m + windowSize ∧
    w.Represents (counters base ds) (min (m - base) u64Max)
  oneSaturated : OneSaturated base ds
  near : highest < base + u64Max + windowSize
  own : base + u64Max ≤ highest → highest ∈ ds

/-- The index does not share `u64::MAX` with another one. -/
def Unshared (base d : ℕ) (ds : List ℕ) : Prop :=
  d ∈ ds ∨ (base + u64Max ≤ d → ∀ x ∈ ds, x < base + u64Max)

variable {base highest d : ℕ} {since before ds : List ℕ} {w : ReplayWindow}

theorem Phase.acceptRtp (h : Phase base highest since w) (hbase : base ≤ d)
    (hlow : highest < d + windowSize) (hhigh : d < highest + windowSize) :
    ((w.acceptRtp (BitVec.ofNat 16 d)).2 = true ↔
      min (d - base) u64Max ∉ counters base since) ∧
    ∃ m ∈ d :: since, (∀ x ∈ d :: since, x ≤ m) ∧ max highest d < m + windowSize ∧
      (w.acceptRtp (BitVec.ofNat 16 d)).1.Represents (counters base (d :: since))
        (min (m - base) u64Max) := by
  obtain ⟨m, hm, hmax, htop, hrep⟩ := h.top
  have hmhigh := h.le_highest m hm
  have haligned := h.aligned
  have hnear := h.near
  have hext : ReplayWindow.extend (min (m - base) u64Max) (BitVec.ofNat 16 d) =
      min (d - base) u64Max := by
    refine ReplayWindow.extend_eq ?_ (Nat.min_le_right _ _) ?_ ?_
    · rw [BitVec.toNat_ofNat]
      omega
    · unfold windowSize u64Max at *
      omega
    · unfold windowSize u64Max at *
      omega
  have hacc := hrep.accept (min (d - base) u64Max)
  have heq : w.acceptRtp (BitVec.ofNat 16 d) = w.accept (min (d - base) u64Max) := by
    rw [ReplayWindow.acceptRtp, hrep.highest]
    simp only [hext]
  rw [heq, counters_cons]
  refine ⟨hacc.1.trans (and_iff_left ?_), max m d, ?_, ?_, ?_, ?_⟩
  · unfold windowSize u64Max at *
    omega
  · rcases Nat.le_total m d with hle | hle
    · rw [max_eq_right hle]
      exact .head _
    · rw [max_eq_left hle]
      exact .tail _ hm
  · rintro x (_ | ⟨_, hx⟩)
    · exact Nat.le_max_right _ _
    · exact Nat.le_trans (hmax x hx) (Nat.le_max_left _ _)
  · omega
  · have hmin : max (min (m - base) u64Max) (min (d - base) u64Max) =
        min (max m d - base) u64Max := by omega
    exact hmin ▸ hacc.2

/-- Over one base, only indices at the end of the counter share a counter. -/
theorem counter_mem_iff (hle : ∀ x ∈ since, base ≤ x) (hbase : base ≤ d)
    (hfree : Unshared base d since) :
    min (d - base) u64Max ∈ counters base since ↔ d ∈ since := by
  constructor
  · rintro ⟨x, hx, heq⟩
    rcases hfree with hd | hfree
    · exact hd
    · have hbx := hle x hx
      have hsat : base + u64Max ≤ d → x < base + u64Max := fun hd => hfree hd x hx
      have : d = x := by omega
      exact this ▸ hx
  · exact fun hd => ⟨d, hd, rfl⟩

theorem Phase.step (h : Phase base highest since w) (hbase : base ≤ d)
    (hlow : highest < d + windowSize) (hhigh : d < highest + windowSize)
    (hfree : Unshared base d since) :
    Phase base (max highest d) (d :: since) (w.acceptRtp (BitVec.ofNat 16 d)).1 := by
  refine ⟨h.aligned, ?_, ?_, (h.acceptRtp hbase hlow hhigh).2, ?_, ?_, ?_⟩
  · rintro x (_ | ⟨_, hx⟩)
    · exact hbase
    · exact h.base_le x hx
  · rintro x (_ | ⟨_, hx⟩)
    · exact Nat.le_max_right _ _
    · exact Nat.le_trans (h.le_highest x hx) (Nat.le_max_left _ _)
  · rcases hfree with hd | hfree
    · intro x hx y hy
      have hmem : ∀ z ∈ d :: since, z ∈ since := fun z hz =>
        (List.mem_cons.mp hz).elim (fun hzd => hzd ▸ hd) id
      exact h.oneSaturated x (hmem x hx) y (hmem y hy)
    · rintro x (_ | ⟨_, hx⟩) y (_ | ⟨_, hy⟩) hsx hsy
      · rfl
      · exact absurd (hfree hsx y hy) (Nat.not_lt.mpr hsy)
      · exact absurd (hfree hsy x hx) (Nat.not_lt.mpr hsx)
      · exact h.oneSaturated x hx y hy hsx hsy
  · -- past the highest index there is one saturated index at most
    have hnear := h.near
    by_cases hle : d ≤ highest
    · rwa [max_eq_left hle]
    · rw [max_eq_right (Nat.le_of_not_le hle)]
      by_contra hfar
      have hown := h.own (by omega)
      rcases hfree with hd | hfree
      · exact hle (h.le_highest d hd)
      · exact absurd (hfree (by omega) highest hown) (by omega)
  · intro hsat
    rcases Nat.le_total highest d with hle | hle
    · rw [max_eq_right hle]
      exact .head _
    · rw [max_eq_left hle] at hsat ⊢
      exact .tail _ (h.own hsat)

/-- A shared `u64::MAX` is answered wrongly. -/
theorem Phase.reject_shared (h : Phase base highest since w) (hbase : base ≤ d)
    (hlow : highest < d + windowSize) (hhigh : d < highest + windowSize)
    (hshared : ¬ Unshared base d since) :
    (w.acceptRtp (BitVec.ofNat 16 d)).2 = false ∧ d ∉ since ∧ base + u64Max ≤ d ∧
      ∃ x ∈ since, base + u64Max ≤ x := by
  unfold Unshared at hshared
  push Not at hshared
  obtain ⟨hd, hsat, x, hx, hxsat⟩ := hshared
  refine ⟨?_, hd, hsat, x, hx, hxsat⟩
  rw [← Bool.not_eq_true, (h.acceptRtp hbase hlow hhigh).1, not_not]
  exact ⟨x, hx, by omega⟩

/-- Past the block border no delivery can fall below the base any more, and the
answers are right unless an index from before the shift (`before`) comes again
or a second one reaches `u64::MAX`. -/
theorem Phase.deliver_iff (hbefore : ∀ x ∈ before, x < base + u64Max) :
    ∀ (ds : List ℕ) {since : List ℕ} {highest : ℕ} {w : ReplayWindow},
      Phase base highest since w → base + windowSize ≤ highest → Near highest ds →
      (deliver w ds = firsts (since ++ before) ds ↔
        (∀ d ∈ ds, d ∈ before → d ∈ since) ∧ OneSaturated base (since ++ ds)) := by
  intro ds
  induction ds with
  | nil =>
    intro since highest w h _ _
    rw [List.append_nil]
    exact ⟨fun _ => ⟨nofun, h.oneSaturated⟩, fun _ => rfl⟩
  | cons d ds ih =>
    rintro since highest w h hpast ⟨hlow, hhigh, hnear⟩
    have hbase : base ≤ d := by omega
    rw [deliver, firsts, List.cons.injEq]
    -- the counter of the index is its own, or it is saturated and shared
    by_cases hfree : Unshared base d since
    · have ih := ih (h.step hbase hlow hhigh hfree) (by omega) hnear
      have hans : (w.acceptRtp (BitVec.ofNat 16 d)).2 = decide (d ∉ since ++ before) ↔
          (d ∈ before → d ∈ since) := by
        rw [Bool.eq_iff_iff, (h.acceptRtp hbase hlow hhigh).1,
          counter_mem_iff h.base_le hbase hfree, decide_eq_true_eq, List.mem_append]
        tauto
      rw [hans, ← List.cons_append, ih, List.cons_append]
      have hsat : OneSaturated base (d :: (since ++ ds)) ↔
          OneSaturated base (since ++ d :: ds) := by
        simp only [OneSaturated, List.perm_middle.mem_iff]
      rw [hsat, ← and_assoc]
      refine and_congr_left fun _ => ⟨?_, fun hall => ⟨hall d (.head _), fun e he hb =>
        .tail _ (hall e (.tail _ he) hb)⟩⟩
      rintro ⟨hd, hall⟩ e (_ | ⟨_, he⟩) hb
      · exact hd hb
      · rcases List.mem_cons.mp (hall e he hb) with rfl | he
        · exact hd hb
        · exact he
    · -- the window rejects an index that is new
      obtain ⟨hrej, hd, hsat, x, hx, hxsat⟩ := h.reject_shared hbase hlow hhigh hfree
      refine ⟨fun heq => ?_, fun hall => ?_⟩
      · rw [hrej] at heq
        have hmem := of_decide_eq_false heq.1.symm
        rw [not_not, List.mem_append] at hmem
        rcases hmem with hmem | hmem
        · exact absurd hmem hd
        · exact absurd (hbefore d hmem) (Nat.not_lt.mpr hsat)
      · have := hall.2 d (List.mem_append_right _ (.head _)) x (List.mem_append_left _ hx)
          hsat hxsat
        exact absurd (this ▸ hx) hd

/-- The first packet from the block before moves the base back by one turn. -/
theorem Phase.shift (h : Phase base highest since w) (hd : d < base)
    (hlow : highest < d + windowSize) :
    2 ^ 16 ≤ base ∧ (w.acceptRtp (BitVec.ofNat 16 d)).2 = true ∧
      Phase (base - 2 ^ 16) (max highest d) [d] (w.acceptRtp (BitVec.ofNat 16 d)).1 := by
  obtain ⟨m, hm, hmax, htop, hrep⟩ := h.top
  have hmhigh := h.le_highest m hm
  have hmbase := h.base_le m hm
  have haligned := h.aligned
  unfold windowSize at hlow htop
  have hturn : 2 ^ 16 ≤ base := by omega
  have hext : ReplayWindow.extend (min (m - base) u64Max) (BitVec.ofNat 16 d) =
      d - (base - 2 ^ 16) := by
    have hseq : (BitVec.ofNat 16 d).toNat = d - (base - 2 ^ 16) := by
      rw [BitVec.toNat_ofNat]
      omega
    rw [ReplayWindow.extend_first_turn (by omega), hseq]
  have heq : w.acceptRtp (BitVec.ofNat 16 d) = w.accept (d - (base - 2 ^ 16)) := by
    rw [ReplayWindow.acceptRtp, hrep.highest]
    simp only [hext]
  -- the counters so far lie more than a window behind
  have hbehind : ∀ c ∈ counters base since, c + windowSize ≤ d - (base - 2 ^ 16) := by
    intro c hc
    have := hrep.covers.le c hc
    unfold windowSize u64Max at *
    omega
  obtain ⟨hans, hrep'⟩ := hrep.accept (d - (base - 2 ^ 16))
  have hmin : min (d - (base - 2 ^ 16)) u64Max = d - (base - 2 ^ 16) := by
    unfold u64Max
    omega
  have htopc : max (min (m - base) u64Max) (d - (base - 2 ^ 16)) = d - (base - 2 ^ 16) := by
    unfold u64Max
    omega
  rw [heq]
  refine ⟨hturn, hans.mpr ⟨fun hc => ?_, ?_⟩, ?_⟩
  · have := hbehind _ hc
    unfold windowSize at this
    omega
  · unfold windowSize u64Max
    omega
  refine ⟨by omega, ?_, ?_, ⟨d, .head _, ?_, ?_, ?_⟩, ?_, ?_, ?_⟩
  · rintro x hx
    rw [List.mem_singleton.mp hx]
    omega
  · rintro x hx
    rw [List.mem_singleton.mp hx]
    exact Nat.le_max_right _ _
  · rintro x hx
    rw [List.mem_singleton.mp hx]
  · unfold windowSize
    omega
  · rw [counters_singleton, hmin]
    rw [htopc] at hrep'
    refine ⟨hrep'.highest, hrep'.covers.congr (fun c hc => Nat.le_of_eq hc) fun c _ hwin => ?_⟩
    rw [Set.mem_singleton_iff, Set.mem_insert_iff, iff_self_or]
    intro hc
    have := hbehind c hc
    omega
  · intro x hx y hy _ _
    rw [List.mem_singleton.mp hx, List.mem_singleton.mp hy]
  · unfold windowSize u64Max
    omega
  · intro hsat
    unfold u64Max at hsat
    omega

/-! ### From the first packet on -/

/-- As long as nothing from an earlier block has arrived, a delivery either keeps
the phase or shifts it. -/
theorem Phase.deliver_iff_first : ∀ (ds : List ℕ) {since : List ℕ} {highest : ℕ}
    {w : ReplayWindow}, Phase base highest since w → Near highest ds →
      (deliver w ds = firsts since ds ↔
        (∀ d ∈ ds.dropWhile (base ≤ ·), d ∉ since ++ ds.takeWhile (base ≤ ·)) ∧
        OneSaturated (if ds.dropWhile (base ≤ ·) = [] then base else base - 2 ^ 16)
          (since ++ ds)) := by
  intro ds
  induction ds with
  | nil =>
    intro since highest w h _
    rw [List.append_nil]
    exact ⟨fun _ => ⟨nofun, h.oneSaturated⟩, fun _ => rfl⟩
  | cons d ds ih =>
    rintro since highest w h ⟨hlow, hhigh, hnear⟩
    by_cases hbase : base ≤ d
    · rw [List.dropWhile_cons_of_pos (by simpa using hbase),
        List.takeWhile_cons_of_pos (by simpa using hbase), deliver, firsts, List.cons.injEq]
      by_cases hfree : Unshared base d since
      · have hans : (w.acceptRtp (BitVec.ofNat 16 d)).2 = decide (d ∉ since) := by
          rw [Bool.eq_iff_iff, (h.acceptRtp hbase hlow hhigh).1,
            counter_mem_iff h.base_le hbase hfree, decide_eq_true_eq]
        rw [and_iff_right hans, ih (h.step hbase hlow hhigh hfree) hnear]
        simp only [OneSaturated, List.cons_append, List.perm_middle.mem_iff]
      · obtain ⟨hrej, hd, hsat, x, hx, hxsat⟩ := h.reject_shared hbase hlow hhigh hfree
        refine ⟨fun heq => ?_, fun hall => ?_⟩
        · rw [hrej] at heq
          exact absurd hd (of_decide_eq_false heq.1.symm)
        · have hle : (if ds.dropWhile (base ≤ ·) = [] then base else base - 2 ^ 16) ≤ base := by
            split <;> omega
          have := hall.2 d (List.mem_append_right _ (.head _)) x (List.mem_append_left _ hx)
            (by omega) (by omega)
          exact absurd (this ▸ hx) hd
    · have hlt : d < base := Nat.lt_of_not_le hbase
      obtain ⟨hturn, hans, hphase⟩ := h.shift hlt hlow
      obtain ⟨m, hm, -, -⟩ := h.top
      have hmbase := h.base_le m hm
      have hmhigh := h.le_highest m hm
      -- nothing delivered so far is anywhere near the end of the counter
      have hearly : ∀ x ∈ since, x < base - 2 ^ 16 + u64Max := fun x hx => by
        have := h.le_highest x hx
        unfold windowSize at hlow
        unfold u64Max
        omega
      have hnew : d ∉ since := fun hd => hbase (h.base_le d hd)
      rw [List.dropWhile_cons_of_neg (by simpa using hlt),
        List.takeWhile_cons_of_neg (by simpa using hlt), if_neg (List.cons_ne_nil _ _),
        List.append_nil, deliver, firsts, List.cons.injEq, hans]
      rw [and_iff_right (decide_eq_true hnew).symm, ← List.singleton_append (l := since),
        hphase.deliver_iff hearly ds (by unfold windowSize; omega) hnear]
      refine and_congr ⟨fun hall => ?_, fun hall e he hb => absurd hb (hall e (.tail _ he))⟩
        ⟨fun hsat x hx y hy hxs hys => ?_, fun hsat x hx y hy => ?_⟩
      · rintro e (_ | ⟨_, he⟩) hb
        · exact hnew hb
        · exact hnew (List.mem_singleton.mp (hall e he hb) ▸ hb)
      · have hmem : ∀ z ∈ since ++ d :: ds, base - 2 ^ 16 + u64Max ≤ z → z ∈ [d] ++ ds := by
          intro z hz hzs
          rcases List.mem_append.mp hz with hz | hz
          · exact absurd (hearly z hz) (Nat.not_lt.mpr hzs)
          · exact hz
        exact hsat x (hmem x hx hxs) y (hmem y hy hys) hxs hys
      · exact hsat x (List.mem_append_right _ hx) y (List.mem_append_right _ hy)

theorem phase_first (d : ℕ) :
    (ReplayWindow.default.acceptRtp (BitVec.ofNat 16 d)).2 = true ∧
      Phase (d / 2 ^ 16 * 2 ^ 16) d [d]
        (ReplayWindow.default.acceptRtp (BitVec.ofNat 16 d)).1 := by
  have hseq : (BitVec.ofNat 16 d).toNat = min (d - d / 2 ^ 16 * 2 ^ 16) u64Max := by
    rw [BitVec.toNat_ofNat]
    unfold u64Max
    omega
  obtain ⟨hans, hrep⟩ := ReplayWindow.accept_first (w := ReplayWindow.default) rfl
    (ReplayWindow.flag_blank none) (BitVec.ofNat 16 d).toNat
  refine ⟨hans, Nat.mul_mod_left _ _, ?_, ?_, ⟨d, .head _, ?_, ?_, ?_⟩, ?_, ?_, ?_⟩
  · intro x hx
    rw [List.mem_singleton.mp hx]
    exact Nat.div_mul_le_self d (2 ^ 16)
  · intro x hx
    exact Nat.le_of_eq (List.mem_singleton.mp hx)
  · intro x hx
    exact Nat.le_of_eq (List.mem_singleton.mp hx)
  · unfold windowSize
    omega
  · rw [counters_singleton, ← hseq]
    exact hrep
  · intro x hx y hy _ _
    rw [List.mem_singleton.mp hx, List.mem_singleton.mp hy]
  · unfold windowSize u64Max
    omega
  · exact fun _ => .head _

/-- Under bounded reordering the window is exact on a delivery order exactly when
the order keeps to the block of its first packet. -/
theorem exact_iff (ds : List ℕ) (h : BoundedReordering ds) : Exact ds ↔ KeepsBlock ds := by
  rcases ds with _ | ⟨d, ds⟩
  · exact ⟨fun _ => ⟨nofun, nofun⟩, fun _ => rfl⟩
  obtain ⟨hans, hphase⟩ := phase_first d
  have hblock : d / 2 ^ 16 * 2 ^ 16 ≤ d := Nat.div_mul_le_self d (2 ^ 16)
  have hafter : afterBlock (d :: ds) = ds.dropWhile (d / 2 ^ 16 * 2 ^ 16 ≤ ·) :=
    List.dropWhile_cons_of_pos (decide_eq_true hblock)
  have hin : inBlock (d :: ds) = d :: ds.takeWhile (d / 2 ^ 16 * 2 ^ 16 ≤ ·) :=
    List.takeWhile_cons_of_pos (decide_eq_true hblock)
  have hiff := hphase.deliver_iff_first ds h
  rw [Exact, deliver, firsts, hans, List.cons.injEq]
  refine (and_iff_right rfl).trans (hiff.trans ?_)
  rw [← hafter, List.singleton_append, List.singleton_append, ← hin]
  exact ⟨fun ⟨h₁, h₂⟩ => ⟨h₁, h₂⟩, fun ⟨h₁, h₂⟩ => ⟨h₁, h₂⟩⟩

/-- Around a block border, from a first packet below it. -/
theorem exact_late : Exact [65534, 65537, 65535, 65537, 65536] := by
  refine (exact_iff [65534, 65537, 65535, 65537, 65536] (by decide)).mpr ⟨by decide, ?_⟩
  unfold OneSaturated
  decide

/-- The first packet opens a block, the one before it arrives late, and the first
one again. -/
theorem delivered_again_across_block :
    BoundedReordering [65536, 65535, 65536] ∧
      deliver ReplayWindow.default [65536, 65535, 65536] = [true, true, true] ∧
      ¬ Exact [65536, 65535, 65536] := by
  have hrun : deliver ReplayWindow.default [65536, 65535, 65536] = [true, true, true] := by
    decide +kernel
  refine ⟨by decide, hrun, fun h => ?_⟩
  rw [Exact, hrun] at h
  exact absurd h (by decide)

end Csqtt.Replay
