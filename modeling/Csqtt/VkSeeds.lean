/-
TURN seeds, from the helper's cache to the engine's table.

The helper keeps a seed under what `NormalizeHashToken` makes of its hash and looks it up
through the same reader; what it finds goes to the engine, which keeps it under the trimmed
hash and asks with the trimmed hash of its own list.

* **`seed_found`**: a seed put under one writing of a hash is found under every other, by
  the helper and by the engine;
* **`engine_key_iff`**: a hash of the engine's list is its own key, but for ampersands.
-/
import Csqtt.VkHashAgree

namespace Csqtt.VkHash
open Csqtt.Pieces Csqtt.GoText Csqtt.Text Csqtt.Credentials

structure TurnSeed where
  hash : GoString
  username : GoString
  password : GoString
  serverAddrs : List GoString
  expiresUnix : Int
deriving DecidableEq

/-- `TurnSeed.Valid`, at the time `now`. -/
def TurnSeed.Valid (now : Int) (seed : TurnSeed) : Bool :=
  if seed.hash = [] ∨ seed.username = [] ∨ seed.password = [] ∨ seed.serverAddrs = [] then false
  else if seed.expiresUnix > 0 ∧ now ≥ seed.expiresUnix then false
  else true

/-- `turnByHash`. -/
abbrev TurnByHash := GoString → Option TurnSeed

/-- `PutTurn`, `none` where it panics. -/
def putTurn (t : CaseTable) (now : Int) (turnByHash : TurnByHash) (seed : TurnSeed) :
    Option TurnByHash :=
  (normalizeHashToken t seed.hash).map fun hash =>
    let seed := { seed with hash }
    if seed.Valid now then Function.update turnByHash hash (some seed) else turnByHash

/-- `LookupTurn`, `none` where it panics. -/
def lookupTurn (t : CaseTable) (now : Int) (turnByHash : TurnByHash) (hash : GoString) :
    Option (Option TurnSeed) :=
  (normalizeHashToken t hash).map fun hash =>
    match turnByHash hash with
    | none => none
    | some seed => if seed.Valid now then some seed else none

/-- What JSON makes of a string on its way into the engine. -/
def wireString (s : GoString) : String := String.ofList (wire s)

theorem wireString_eq_empty {s : GoString} : wireString s = "" ↔ s = [] := by
  rw [wireString, ← String.toList_inj, String.toList_ofList]
  simp [wire]

/-- The helper's seed in the engine's table. -/
def installSeed (seeds : SeedStore) (seed : TurnSeed) : SeedStore :=
  seeds.install (wireString seed.hash) (wireString seed.username) (wireString seed.password)
    (seed.serverAddrs.map wireString)

/-- What the engine takes out of it. -/
def TurnSeed.credentials (seed : TurnSeed) : TurnCredentials :=
  ⟨wireString seed.username, wireString seed.password, seed.serverAddrs.map wireString⟩

theorem putTurn_lookupTurn {t : CaseTable} {now : Int} (turnByHash : TurnByHash)
    {seed : TurnSeed} {raw h : GoString} (hput : normalizeHashToken t seed.hash = some h)
    (hlook : normalizeHashToken t raw = some h)
    (hvalid : ({ seed with hash := h } : TurnSeed).Valid now = true) :
    ∃ turnByHash', putTurn t now turnByHash seed = some turnByHash' ∧
      lookupTurn t now turnByHash' raw = some (some { seed with hash := h }) := by
  refine ⟨Function.update turnByHash h (some { seed with hash := h }), ?_, ?_⟩
  · rw [putTurn, hput, Option.map_some]
    simp only [hvalid, if_true]
  · rw [lookupTurn, hlook, Option.map_some, Function.update_self]
    simp only [hvalid, if_true]

theorem TurnSeed.valid_parts {now : Int} {seed : TurnSeed} (h : seed.Valid now = true) :
    seed.hash ≠ [] ∧ seed.username ≠ [] ∧ seed.password ≠ [] ∧ seed.serverAddrs ≠ [] := by
  rw [Valid] at h
  split at h
  · cases h
  · rename_i hnot
    simp only [not_or] at hnot
    exact hnot

theorem trim_ofList (l : List Char) :
    trim (String.ofList l) = String.ofList (trimMatches isWhitespace l) := by
  rw [trim, String.toList_ofList]
  rfl

theorem EngineHash.trim_eq {h : List Char} (hh : EngineHash h) :
    trim (String.ofList h) = String.ofList h := by
  rw [trim_ofList, trimMatches_eq_self.mpr hh.trimmed]

theorem installSeed_lookup {now : Int} {seeds : SeedStore} {seed : TurnSeed} {h : List Char}
    (hh : EngineHash h) (hhash : seed.hash = ofChars h) (hvalid : seed.Valid now = true) :
    (installSeed seeds seed).lookup (String.ofList h) = some seed.credentials := by
  obtain ⟨-, huser, hpass, haddrs⟩ := TurnSeed.valid_parts hvalid
  have hkey : wireString seed.hash = String.ofList h := by
    rw [hhash, wireString, wire_ofChars]
  have hne : String.ofList h ≠ "" := fun hempty => hh.ne_nil (by
    rw [← String.toList_inj, String.toList_ofList] at hempty
    exact hempty)
  rw [installSeed, hkey, SeedStore.install, if_neg, SeedStore.lookup, Function.update_self]
  · rfl
  · rw [hh.trim_eq, wireString_eq_empty, wireString_eq_empty, List.map_eq_nil_iff]
    simp only [hne, huser, hpass, haddrs, or_false, not_false_eq_true]

theorem cut_no_ampersand {h : List Char} (hamp : '&' ∉ h) :
    cut (fun c => decide (c = '&')) h = h := by
  rw [cut_eq_self]
  intro c hc
  exact decide_eq_false fun heq => hamp (heq ▸ hc)

/-- A seed put under one writing of a hash is found under every other one, and the engine
finds it under the hash that it reads there itself. -/
theorem seed_found (t : CaseTable) {now : Int} {turnByHash : TurnByHash} {seeds : SeedStore}
    {seed : TurnSeed} {url url' h tail tail' : List Char} (w : Writing url h tail)
    (w' : Writing url' h tail') (hamp : '&' ∉ h) (hhash : seed.hash = ofChars (url ++ h ++ tail))
    (hvalid : ({ seed with hash := ofChars h } : TurnSeed).Valid now = true) :
    normalizeHash (url' ++ h ++ tail') = some h ∧
    ∃ turnByHash' found, putTurn t now turnByHash seed = some turnByHash' ∧
      lookupTurn t now turnByHash' (ofChars (url' ++ h ++ tail')) = some (some found) ∧
      (installSeed seeds found).lookup (String.ofList h) = some seed.credentials := by
  have hput := w.normalizeHashToken_eq t
  have hlook := w'.normalizeHashToken_eq t
  rw [cut_no_ampersand hamp] at hput hlook
  rw [← hhash] at hput
  obtain ⟨turnByHash', hstored, hfound⟩ := putTurn_lookupTurn turnByHash hput hlook hvalid
  refine ⟨w'.normalizeHash_eq, turnByHash', _, hstored, hfound, ?_⟩
  exact installSeed_lookup w.engine rfl hvalid

/-- A hash of the engine's list is its own key with the helper, unless there is an ampersand
in it. -/
theorem engine_key_iff (t : CaseTable) {h : List Char} (hh : EngineHash h) :
    ∃ key, normalizeHashToken t (ofChars h) = some key ∧
      (trim (wireString key) = trim (String.ofList h) ↔ '&' ∉ h) := by
  have w : Writing [] h [] := ⟨hh, .inl rfl, by simp, by simp⟩
  have htoken := w.normalizeHashToken_eq t
  rw [List.nil_append, List.append_nil] at htoken
  refine ⟨_, htoken, ?_⟩
  rw [wireString, wire_ofChars, trim_ofList, hh.trim_eq, ← String.toList_inj,
    String.toList_ofList, String.toList_ofList]
  refine ⟨fun heq hmem => ?_, fun hnot => ?_⟩
  · -- the key has no ampersand
    rw [← heq] at hmem
    have := cut_clean ((trimMatches_part _ _).subset hmem)
    simp at this
  · rw [cut_no_ampersand hnot, trimMatches_eq_self.mpr hh.trimmed]

/-! ### The readers together -/

/-- How far the three readers agree. -/
structure Agreement (t : CaseTable) : Prop where
  /-- A list of `splitHashes` in the engine. -/
  split_lists : ∀ raw, ∃ hashes, splitHashes t raw = some hashes ∧
    (readBack hashes = hashes ↔
      hashes.Nodup ∧ ∀ h ∈ hashes, ∃ text, h = ofChars text ∧ EngineHash text)
  /-- A list of `CollectHashesFor`, which has nothing in it twice. -/
  collected_lists : ∀ linkHashes cfg scheme hashes,
    collectHashesFor t linkHashes cfg scheme = some hashes →
    (readBack hashes = hashes ↔ ∀ h ∈ hashes, ∃ text, h = ofChars text ∧ EngineHash text)
  /-- What a reader makes of its own result. -/
  strip_again : ∀ raw h, stripVkCallURL t raw = some h →
    (stripVkCallURL t h = some h ↔ Bare (Rune.is isWhitespace) h ∧ ¬ HasURL t h)
  token_again : ∀ raw h, normalizeHashToken t raw = some h →
    (normalizeHashToken t h = some h ↔ Bare (Rune.is isWhitespace) h ∧ ¬ HasJoin t h)
  engine_again : ∀ raw h, normalizeHash raw = some h →
    (normalizeHash h = some h ↔ Bare bracket h)
  /-- The three on one hash, however it is written. -/
  one_hash : ∀ url h tail, Writing url h tail →
    normalizeHash (url ++ h ++ tail) = some h ∧
    stripVkCallURL t (ofChars (url ++ h ++ tail)) = some (ofChars h) ∧
    ('&' ∉ h → normalizeHashToken t (ofChars (url ++ h ++ tail)) = some (ofChars h))
  /-- The key of a hash of the engine's list, with the helper and with the engine. -/
  keys : ∀ h, EngineHash h → ∃ key, normalizeHashToken t (ofChars h) = some key ∧
    (trim (wireString key) = trim (String.ofList h) ↔ '&' ∉ h)
  /-- So that seeds are found. -/
  seeds : ∀ (now : Int) (turnByHash : TurnByHash) (seeds : SeedStore) (seed : TurnSeed)
      (url url' h tail tail' : List Char), Writing url h tail → Writing url' h tail' → '&' ∉ h →
    seed.hash = ofChars (url ++ h ++ tail) →
    ({ seed with hash := ofChars h } : TurnSeed).Valid now = true →
    normalizeHash (url' ++ h ++ tail') = some h ∧
    ∃ turnByHash' found, putTurn t now turnByHash seed = some turnByHash' ∧
      lookupTurn t now turnByHash' (ofChars (url' ++ h ++ tail')) = some (some found) ∧
      (installSeed seeds found).lookup (String.ofList h) = some seed.credentials
  /-- Nothing is sliced outside of a string. -/
  strip_in_range : ∀ raw, ∃ h, stripVkCallURL t raw = some h
  token_in_range : ∀ raw, NoneGrows t raw → ∃ h, normalizeHashToken t raw = some h

/-- A table with one letter beyond ASCII, which takes a byte more in lower case. -/
def strokeTable : CaseTable where
  beyond c := if 128 ≤ c.toNat ∧ c ≠ 'Ⱥ' then c else 'ⱥ'
  beyond_ascii c := by
    split
    · rename_i h
      exact h.1
    · decide

theorem abc_written :
    Writing "HTTPS://vk.com/call/join/".toList "abc".toList "?from=me".toList where
  engine := ⟨⟨by decide, forall_mem_of_all (by decide), by decide⟩, by decide,
    forall_mem_of_all (by decide)⟩
  known := .inr (by decide)
  mark := by
    have hhead : "?from=me".toList.head? = some '?' := by decide
    intro c hc
    exact .inl (Option.some.inj (hhead.symm.trans hc)).symm
  flat := by decide

end Csqtt.VkHash
