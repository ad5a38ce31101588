/-
The table of workers of a dispatcher.

A worker registers under its id, which takes the place of an earlier one of that id, and
unregisters with the incarnation that it registered.  After each change the table is laid
out anew: the workers of each turn path in the order of their ids, and the paths dealt out
in turn.  The updates are read-copy-update, so they come one after another.  A history
lists them newest first.

* `table_canonical` — the table is a function of the live registrations.
-/
import Csqtt.Dispatch
import Csqtt.RoundRobin
import Mathlib.Data.String.Basic

namespace Csqtt.WorkerTable

open RoundRobin

/-- A worker: its queues and flag, and what the table is laid out by. -/
structure WorkerChannels extends Dispatcher.WorkerChannels where
  id : ℕ
  incarnationId : ℕ
  /-- Compared by code points, which is the order of the bytes too. -/
  turnPath : String
  deriving DecidableEq

namespace WorkerChannels

/-- What the order looks at. -/
def key (w : WorkerChannels) : String × ℕ := (w.turnPath, w.id)

end WorkerChannels

def interleaveTurnPaths (workers : List WorkerChannels) : List WorkerChannels :=
  interleave (·.turnPath) (·.id) workers

def register (workers : List WorkerChannels) (channels : WorkerChannels) : List WorkerChannels :=
  interleaveTurnPaths ((workers.filter fun worker => worker.id ≠ channels.id) ++ [channels])

def unregister (workers : List WorkerChannels) (id incarnationId : ℕ) : List WorkerChannels :=
  interleaveTurnPaths
    (workers.filter fun worker => worker.id ≠ id || worker.incarnationId ≠ incarnationId)

inductive Update where
  | register (channels : WorkerChannels)
  | unregister (id incarnationId : ℕ)
  deriving DecidableEq

/-- The table after a history. -/
def table : List Update → List WorkerChannels
  | [] => []
  | .register channels :: before => register (table before) channels
  | .unregister id incarnationId :: before => unregister (table before) id incarnationId

/-- The worker is the last one registered under its id, and was not unregistered since. -/
def Live (history : List Update) (w : WorkerChannels) : Prop :=
  ∃ later before, history = later ++ .register w :: before ∧
    (∀ channels, Update.register channels ∈ later → channels.id ≠ w.id) ∧
    Update.unregister w.id w.incarnationId ∉ later

/-- In every part of the table from its start, no turn path with workers left is more than
one ahead of another. -/
def Balanced (workers : List WorkerChannels) : Prop :=
  ∀ taken, taken <+: workers → ∀ p q,
    countPath (·.turnPath) p taken < countPath (·.turnPath) p workers →
    countPath (·.turnPath) q taken < countPath (·.turnPath) q workers →
      countPath (·.turnPath) p taken ≤ countPath (·.turnPath) q taken + 1

variable {workers : List WorkerChannels} {history : List Update} {w : WorkerChannels}

/-! ### One update -/

theorem mem_interleaveTurnPaths : w ∈ interleaveTurnPaths workers ↔ w ∈ workers :=
  (interleave_perm_self _ _ workers).mem_iff

theorem mem_register {channels : WorkerChannels} :
    w ∈ register workers channels ↔ w ∈ workers ∧ w.id ≠ channels.id ∨ w = channels := by
  rw [register, mem_interleaveTurnPaths, List.mem_append, List.mem_filter, List.mem_singleton]
  simp

theorem mem_unregister {id incarnationId : ℕ} :
    w ∈ unregister workers id incarnationId ↔
      w ∈ workers ∧ ¬ (w.id = id ∧ w.incarnationId = incarnationId) := by
  rw [unregister, mem_interleaveTurnPaths, List.mem_filter]
  simp [imp_iff_not_or]

theorem nodup_ids_interleave (h : (workers.map (·.id)).Nodup) :
    ((interleaveTurnPaths workers).map (·.id)).Nodup :=
  ((interleave_perm_self _ _ workers).map _).nodup_iff.mpr h

theorem nodup_ids_filter (p : WorkerChannels → Bool) (h : (workers.map (·.id)).Nodup) :
    ((workers.filter p).map (·.id)).Nodup :=
  h.sublist (List.filter_sublist.map _)

/-- Each id is in the table once. -/
theorem nodup_ids (history : List Update) : ((table history).map (·.id)).Nodup := by
  induction history with
  | nil => exact List.nodup_nil
  | cons update before ih =>
    cases update with
    | unregister id incarnationId => exact nodup_ids_interleave (nodup_ids_filter _ ih)
    | register channels =>
      refine nodup_ids_interleave ?_
      rw [List.map_append, List.map_singleton, List.nodup_append]
      refine ⟨nodup_ids_filter _ ih, List.nodup_singleton _, ?_⟩
      intro id hid other hother
      obtain ⟨worker, hworker, rfl⟩ := List.mem_map.mp hid
      rw [List.mem_singleton.mp hother]
      simpa using (List.mem_filter.mp hworker).2

theorem eq_of_id_eq {a b : WorkerChannels} (h : (workers.map (·.id)).Nodup) (ha : a ∈ workers)
    (hb : b ∈ workers) (hid : a.id = b.id) : a = b :=
  List.inj_on_of_nodup_map h ha hb hid

/-! ### The live registrations -/

theorem live_register {channels : WorkerChannels} :
    Live (.register channels :: history) w ↔
      Live history w ∧ w.id ≠ channels.id ∨ w = channels := by
  constructor
  · rintro ⟨later, before, hhistory, hlater, hgone⟩
    -- the registration that counts is the newest update, or it was there before
    rcases List.cons_eq_append_iff.mp hhistory with ⟨rfl, hcons⟩ | ⟨later', rfl, hrest⟩
    · right
      rw [List.cons.injEq, Update.register.injEq] at hcons
      exact hcons.1
    · left
      refine ⟨⟨later', before, hrest, ?_, ?_⟩, ?_⟩
      · intro other hother
        exact hlater other (List.mem_cons_of_mem _ hother)
      · intro hgone'
        exact hgone (List.mem_cons_of_mem _ hgone')
      · exact (hlater channels List.mem_cons_self).symm
  · rintro (⟨⟨later, before, rfl, hlater, hgone⟩, hid⟩ | rfl)
    · refine ⟨.register channels :: later, before, rfl, ?_, ?_⟩
      · intro other hother
        rcases List.mem_cons.mp hother with heq | hother
        · rw [Update.register.injEq] at heq
          rw [heq]
          exact hid.symm
        · exact hlater other hother
      · intro hgone'
        rcases List.mem_cons.mp hgone' with heq | hgone'
        · simp at heq
        · exact hgone hgone'
    · refine ⟨[], history, rfl, ?_, List.not_mem_nil⟩
      intro other hother
      exact absurd hother List.not_mem_nil

theorem live_unregister {id incarnationId : ℕ} :
    Live (.unregister id incarnationId :: history) w ↔
      Live history w ∧ ¬ (w.id = id ∧ w.incarnationId = incarnationId) := by
  constructor
  · rintro ⟨later, before, hhistory, hlater, hgone⟩
    -- the newest update is no registration, so the one that counts was there before
    rcases List.cons_eq_append_iff.mp hhistory with ⟨rfl, hcons⟩ | ⟨later', rfl, hrest⟩
    · simp at hcons
    · refine ⟨⟨later', before, hrest, ?_, ?_⟩, ?_⟩
      · intro other hother
        exact hlater other (List.mem_cons_of_mem _ hother)
      · intro hgone'
        exact hgone (List.mem_cons_of_mem _ hgone')
      · rintro ⟨rfl, rfl⟩
        exact hgone List.mem_cons_self
  · rintro ⟨⟨later, before, rfl, hlater, hgone⟩, hother⟩
    refine ⟨.unregister id incarnationId :: later, before, rfl, ?_, ?_⟩
    · intro other hmem
      rcases List.mem_cons.mp hmem with heq | hmem
      · simp at heq
      · exact hlater other hmem
    · intro hgone'
      rcases List.mem_cons.mp hgone' with heq | hgone'
      · rw [Update.unregister.injEq] at heq
        exact hother heq
      · exact hgone hgone'

theorem mem_table_iff (history : List Update) (w : WorkerChannels) :
    w ∈ table history ↔ Live history w := by
  induction history with
  | nil =>
    refine iff_of_false List.not_mem_nil ?_
    rintro ⟨later, before, hhistory, -⟩
    simp at hhistory
  | cons update before ih =>
    cases update with
    | register channels => rw [table, mem_register, live_register, ih]
    | unregister id incarnationId => rw [table, mem_unregister, live_unregister, ih]

/-! ### The layout -/

/-- A table that is laid out already stays as it is. -/
theorem interleave_interleave (h : (workers.map (·.id)).Nodup) :
    interleaveTurnPaths (interleaveTurnPaths workers) = interleaveTurnPaths workers := by
  refine interleave_perm (interleave_perm_self _ _ workers) ?_
  intro a ha b hb _ hid
  exact eq_of_id_eq (nodup_ids_interleave h) ha hb hid

theorem table_laid_out (history : List Update) :
    interleaveTurnPaths (table history) = table history := by
  cases history with
  | nil =>
    have hnil : (interleaveTurnPaths []).Perm [] := interleave_perm_self _ _ []
    exact hnil.eq_nil
  | cons update before =>
    cases update with
    | unregister id incarnationId =>
      exact interleave_interleave (nodup_ids_filter _ (nodup_ids before))
    | register channels =>
      refine interleave_interleave ?_
      have hids := nodup_ids (.register channels :: before)
      exact ((interleave_perm_self _ _ _).map _).nodup_iff.mp hids

/-- A stale `unregister` changes nothing. -/
theorem unregister_of_stale {id incarnationId : ℕ}
    (h : ∀ worker ∈ table history, ¬ (worker.id = id ∧ worker.incarnationId = incarnationId)) :
    table (.unregister id incarnationId :: history) = table history := by
  have hfilter : (table history).filter
      (fun worker => worker.id ≠ id || worker.incarnationId ≠ incarnationId) = table history := by
    refine List.filter_eq_self.mpr ?_
    intro worker hworker
    have hother := h worker hworker
    simpa [imp_iff_not_or] using hother
  rw [table, unregister, hfilter, table_laid_out]

/-- The order of the keys, laid out by themselves. -/
theorem map_key_interleave (workers : List WorkerChannels) :
    (interleaveTurnPaths workers).map WorkerChannels.key =
      interleave Prod.fst Prod.snd (workers.map WorkerChannels.key) :=
  map_interleave Prod.fst Prod.snd WorkerChannels.key workers

theorem nodup_keys (history : List Update) :
    ((table history).map WorkerChannels.key).Nodup := by
  have hids : (((table history).map WorkerChannels.key).map Prod.snd).Nodup := by
    rw [List.map_map]
    exact nodup_ids history
  exact hids.of_map

theorem keys_eq_of_mem_iff {history' : List Update}
    (h : ∀ key, key ∈ (table history).map WorkerChannels.key ↔
      key ∈ (table history').map WorkerChannels.key) :
    (table history).map WorkerChannels.key = (table history').map WorkerChannels.key := by
  have hperm : ((table history).map WorkerChannels.key).Perm
      ((table history').map WorkerChannels.key) :=
    (List.perm_ext_iff_of_nodup (nodup_keys history) (nodup_keys history')).mpr h
  rw [← table_laid_out history, ← table_laid_out history', map_key_interleave,
    map_key_interleave]
  refine interleave_perm hperm ?_
  intro a _ b _ hpath hid
  exact Prod.ext hpath hid

theorem balanced_table (history : List Update) : Balanced (table history) := by
  intro taken htaken p q hp hq
  rw [← table_laid_out history] at htaken hp hq
  exact interleave_balanced _ _ (table history) htaken hp hq

/-- The table is a function of the live registrations: each id is in it once, with the last
worker registered under it that was not unregistered since; an `unregister` of an incarnation
that is not there changes nothing; its order depends on nothing but the turn paths and ids in
it; and the turn paths take turns. -/
theorem table_canonical (history : List Update) :
    ((table history).map (·.id)).Nodup ∧
      (∀ w, w ∈ table history ↔ Live history w) ∧
      (∀ id incarnationId,
        (∀ w ∈ table history, ¬ (w.id = id ∧ w.incarnationId = incarnationId)) →
          table (.unregister id incarnationId :: history) = table history) ∧
      (∀ history', (∀ key, key ∈ (table history).map WorkerChannels.key ↔
          key ∈ (table history').map WorkerChannels.key) →
        (table history).map WorkerChannels.key = (table history').map WorkerChannels.key) ∧
      Balanced (table history) := by
  refine ⟨nodup_ids history, mem_table_iff history, ?_, ?_, balanced_table history⟩
  · intro id incarnationId h
    exact unregister_of_stale h
  · intro history' h
    exact keys_eq_of_mem_iff h

end Csqtt.WorkerTable
