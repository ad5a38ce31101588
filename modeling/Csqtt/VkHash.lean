/-
How a VK call hash is read out of what a user wrote.

There are three readers. `stripVkCallURL` and `NormalizeHashToken` are the helper's, in Go;
`normalize_hash` is the engine's, in Rust. The helper splits its fields into hashes, joins
them with commas and hands them to the engine, which splits them again.

* **`stripVkCallURL_total`**: the helper's first reader never slices outside;
* **`splitHashes_eq`**: so that neither does the split into hashes;
* **`stripVkCallURL_again`**, **`normalizeHashToken_again`**, **`normalizeHash_again`**: what
  each reader leaves alone of what it read;
* **`normalizeHashToken_in_range`**: nor does the second, where no character grows.
-/
import Csqtt.GoText

namespace Csqtt.VkHash
open Csqtt.Pieces Csqtt.GoText Csqtt.Text

/-! ### The helper -/

/-- The URLs in front of a hash, in the order in which they are tried. -/
def callPrefixes : List (List Char) :=
  ["https://vk.com/call/join/".toList, "http://vk.com/call/join/".toList,
    "https://m.vk.com/call/join/".toList, "http://m.vk.com/call/join/".toList,
    "m.vk.com/call/join/".toList, "vk.com/call/join/".toList,
    "https://vk.ru/call/join/".toList, "http://vk.ru/call/join/".toList,
    "https://m.vk.ru/call/join/".toList, "http://m.vk.ru/call/join/".toList,
    "m.vk.ru/call/join/".toList, "vk.ru/call/join/".toList]

/-- `s[:i]` for the `i` of `strings.IndexAny`. -/
def cutAny (marks : List Char) (s : GoString) : GoString := cut (Rune.is (· ∈ marks)) s

/-- `strings.Trim(s, "/")`. -/
def trimSlashes (s : GoString) : GoString := trimMatches (Rune.is (· = '/')) s

/-- The length that is cut off is that of what the lower-cased copy begins with. -/
def pastURL (t : CaseTable) (s : GoString) : Option GoString :=
  match callPrefixes.find? fun p => decide (ofChars p <+: toLower t s) with
  | some p => sliceFrom s (byteLen (ofChars p))
  | none => some s

def stripVkCallURL (t : CaseTable) (raw : GoString) : Option GoString :=
  let s := trimSpace raw
  if s = [] then some [] else
  (pastURL t s).map fun s => trimSlashes (trimSpace (cutAny ['?', '#'] s))

def splitHashes (t : CaseTable) (raw : GoString) : Option (List GoString) :=
  ((fields (Rune.is (· ∈ ['+', ',', ' ', '\t', '\n'])) raw).mapM (stripVkCallURL t)).map
    (·.filter (· ≠ []))

def vkJoin : List Char := "vk.com/call/join/".toList

def join : List Char := "join/".toList

def call : List Char := "call".toList

/-- The offset is one of the lower-cased copy, the slice one of `s`. -/
def pastJoin (t : CaseTable) (s : GoString) : Option GoString :=
  let low := toLower t s
  match index? (ofChars vkJoin) low with
  | some i => sliceFrom s (byteLen (low.take i) + byteLen (ofChars vkJoin))
  | none =>
    match index? (ofChars join) low, index? (ofChars call) low with
    | some i, some _ => sliceFrom s (byteLen (low.take i) + byteLen (ofChars join))
    | _, _ => some s

/-- `NormalizeHashToken`, `none` where it panics. -/
def normalizeHashToken (t : CaseTable) (raw : GoString) : Option GoString :=
  let s := trimSpace raw
  if s = [] then some [] else
  (pastJoin t s).map fun s => trimSlashes (cutAny ['?', '#', '&'] s)

def splitHashField (t : CaseTable) (raw : GoString) : Option (List GoString) :=
  ((fields (Rune.is (· ∈ [',', ';', ' ', '\n', '\t'])) raw).mapM (normalizeHashToken t)).map
    (·.filter (· ≠ []))

def dedupe (hashes : List GoString) : List GoString :=
  uniq [] ((hashes.map trimSpace).filter (· ≠ []))

/-- `strings.Join(hashes, ",")`. -/
def joinCommas (hashes : List GoString) : GoString := [Rune.char ','].intercalate hashes

/-- `cfg` is `""` under a key that it lacks. -/
def settingsHashesFor (t : CaseTable) (cfg : String → GoString) (scheme : String) :
    Option (List GoString) := do
  let scheme := trim scheme
  let own ← if scheme = "" then some [] else
    (splitHashField t (joinCommas ([1, 2, 3, 4].map fun i =>
      cfg ("SETTING_" ++ scheme ++ "Hash" ++ Nat.repr i)))).map dedupe
  if own ≠ [] then some own else
  (splitHashField t (joinCommas (([1, 2, 3, 4].map fun i =>
    cfg ("SETTING_vkHash" ++ Nat.repr i)) ++ [cfg "SETTING_vkHashes"]))).map dedupe

def collectHashesFor (t : CaseTable) (linkHashes : List GoString) (cfg : String → GoString)
    (scheme : String) : Option (List GoString) := do
  let all ← linkHashes.mapM (normalizeHashToken t)
  let settings ← settingsHashesFor t cfg scheme
  some (dedupe (all ++ settings))

/-! ### The engine -/

def hashSeparator (c : Char) : Bool := c ∈ [',', ';', '\n', '\r', '\t', ' ']

def bracket (c : Char) : Bool := c ∈ ['<', '>', '"', '\'']

def urlMark (c : Char) : Bool := c ∈ ['?', '#', '/']

def callJoin : List Char := "/call/join/".toList

/-- The end of `normalize_hash`. -/
def firstSegment (value : List Char) : Option (List Char) :=
  let value := trimMatches (· = '/') (trimMatches isWhitespace (cut urlMark value))
  if value = [] then none else some value

/-- `normalize_hash`. Lower-casing ASCII moves no offset. -/
def normalizeHash (input : List Char) : Option (List Char) :=
  let value := trimMatches bracket (trimMatches isWhitespace input)
  if value = [] then none else
  let lower := value.map Char.toLower
  match index? callJoin lower with
  | some i => firstSegment (value.drop (i + callJoin.length))
  | none =>
    if "http://".toList <+: lower ∨ "https://".toList <+: lower then none
    else firstSegment value

def parseHashes (raw : List Char) : List (List Char) :=
  uniq [] ((raw.splitOnP hashSeparator).filterMap normalizeHash)

/-- The list that the engine reads out of the helper's. -/
def readBack (hashes : List GoString) : List GoString :=
  (parseHashes (wire (joinCommas hashes))).map ofChars

/-! ### What one reader does -/

theorem callPrefixes_sizes : ∀ p ∈ callPrefixes, byteLen (ofChars p) = p.length ∧ 0 < p.length := by
  decide +kernel

/-- A URL in front of a hash has one byte a character. -/
theorem callPrefixes_byteLen : ∀ p ∈ callPrefixes, byteLen (ofChars p) = p.length := fun p hp =>
  (callPrefixes_sizes p hp).1

theorem callPrefixes_pos : ∀ p ∈ callPrefixes, 0 < p.length := fun p hp =>
  (callPrefixes_sizes p hp).2

/-- So it is no longer than the text whose lower case begins with it. -/
theorem stripVkCallURL_in_range {t : CaseTable} {s : GoString} {p : List Char}
    (hp : p ∈ callPrefixes) (hs : ofChars p <+: toLower t s) : byteLen (ofChars p) ≤ byteLen s := by
  have hlen : p.length ≤ s.length := by
    simpa [ofChars, toLower] using hs.length_le
  rw [callPrefixes_byteLen p hp]
  exact hlen.trans (length_le_byteLen s)

/-- Does the text begin with a known URL, as the first reader looks for one? -/
def HasURL (t : CaseTable) (s : GoString) : Prop :=
  ∃ p ∈ callPrefixes, ofChars p <+: toLower t s

theorem pastURL_of_not {t : CaseTable} {s : GoString} (h : ¬ HasURL t s) :
    pastURL t s = some s := by
  have hfind : callPrefixes.find? (fun p => decide (ofChars p <+: toLower t s)) = none := by
    rw [List.find?_eq_none]
    exact fun p hp hpre => h ⟨p, hp, of_decide_eq_true hpre⟩
  rw [pastURL, hfind]

/-- A URL that is there is taken off, with at least one byte. -/
theorem pastURL_shorter {t : CaseTable} {s : GoString} (h : HasURL t s) :
    ∃ rest, pastURL t s = some rest ∧ byteLen rest < byteLen s := by
  obtain ⟨q, hq, hstarts⟩ := h
  rw [pastURL]
  cases hfind : callPrefixes.find? fun p => decide (ofChars p <+: toLower t s) with
  | none => exact absurd (decide_eq_true hstarts) (List.find?_eq_none.mp hfind q hq)
  | some p =>
    have hp := List.mem_of_find?_eq_some hfind
    have hpre : ofChars p <+: toLower t s := by simpa using List.find?_some hfind
    have hle := stripVkCallURL_in_range hp hpre
    have hpos := callPrefixes_pos p hp
    rw [← callPrefixes_byteLen p hp] at hpos
    cases hslice : sliceFrom s (byteLen (ofChars p)) with
    | some rest =>
      have := byteLen_sliceFrom hslice
      exact ⟨rest, hslice, by omega⟩
    | none =>
      have := sliceFrom_eq_none.mp hslice
      omega

theorem mem_pastURL {t : CaseTable} {s rest : GoString} (h : pastURL t s = some rest) {r : Rune}
    (hr : r ∈ rest) : r ∈ s ∨ ∃ b, r = .byte b := by
  rw [pastURL] at h
  split at h
  · exact mem_sliceFrom h hr
  · obtain rfl := Option.some.inj h
    exact .inl hr

theorem stripVkCallURL_total (t : CaseTable) (raw : GoString) :
    ∃ h, stripVkCallURL t raw = some h := by
  rw [stripVkCallURL]
  split
  · exact ⟨[], rfl⟩
  · by_cases hurl : HasURL t (trimSpace raw)
    · obtain ⟨rest, hrest, -⟩ := pastURL_shorter hurl
      exact ⟨_, by rw [hrest, Option.map_some]⟩
    · exact ⟨_, by rw [pastURL_of_not hurl, Option.map_some]⟩

/-- The end of both of the helper's readers shortens. -/
theorem trimSlashes_cutAny_part (marks : List Char) (s : GoString) :
    trimSlashes (cutAny marks s) <:+: s :=
  (trimMatches_part _ _).trans (cut_part _ s)

theorem trimSpace_part (s : GoString) : trimSpace s <:+: s := trimMatches_part _ s

/-- Nothing in a clean text is cut. -/
theorem cutAny_eq_self {marks : List Char} {s : GoString}
    (h : ∀ r ∈ s, Rune.is (· ∈ marks) r = false) : cutAny marks s = s := cut_eq_self.mpr h

/-- What the first reader leaves has no mark in it and no slash at its ends. -/
theorem stripVkCallURL_shape {t : CaseTable} {raw h : GoString}
    (hh : stripVkCallURL t raw = some h) :
    (∀ r ∈ h, Rune.is (· ∈ ['?', '#']) r = false) ∧ Bare (Rune.is (· = '/')) h := by
  rw [stripVkCallURL] at hh
  split at hh
  · obtain rfl : [] = h := Option.some.inj hh
    exact ⟨by simp, by simp [Bare]⟩
  · obtain ⟨s, -, rfl⟩ := Option.map_eq_some_iff.mp hh
    refine ⟨fun r hr => ?_, trimMatches_bare _ _⟩
    have hcut : r ∈ cutAny ['?', '#'] s :=
      ((trimMatches_part _ _).trans (trimSpace_part _)).subset hr
    exact cut_clean hcut

/-- Of what it left, the first reader leaves exactly what has no space at its ends and does
not begin with another URL. -/
theorem stripVkCallURL_again {t : CaseTable} {raw h : GoString}
    (hh : stripVkCallURL t raw = some h) :
    stripVkCallURL t h = some h ↔ Bare (Rune.is isWhitespace) h ∧ ¬ HasURL t h := by
  obtain ⟨hclean, hslash⟩ := stripVkCallURL_shape hh
  refine ⟨fun hagain => ?_, fun ⟨hbare, hnot⟩ => ?_⟩
  · rw [stripVkCallURL] at hagain
    split at hagain
    · obtain rfl : [] = h := Option.some.inj hagain
      refine ⟨by simp [Bare], fun hurl => ?_⟩
      obtain ⟨rest, -, hlt⟩ := pastURL_shorter hurl
      exact absurd hlt (Nat.not_lt_zero _)
    · obtain ⟨s, hs, hout⟩ := Option.map_eq_some_iff.mp hagain
      have hout_le : byteLen h ≤ byteLen s := by
        rw [← hout]
        exact byteLen_le_of_part ((trimMatches_part _ _).trans
          ((trimSpace_part _).trans (cut_part _ s)))
      have htrim_le := byteLen_le_of_part (trimSpace_part h)
      have hnot : ¬ HasURL t (trimSpace h) := fun hurl => by
        obtain ⟨rest, hrest, hlt⟩ := pastURL_shorter hurl
        obtain rfl : rest = s := Option.some.inj (hrest.symm.trans hs)
        omega
      rw [pastURL_of_not hnot] at hs
      obtain rfl : trimSpace h = s := Option.some.inj hs
      have htrim : trimSpace h = h := eq_of_part_of_byteLen (trimSpace_part h) hout_le
      rw [htrim] at hnot
      exact ⟨trimMatches_eq_self.mp htrim, hnot⟩
  · have htrim : trimSpace h = h := trimMatches_eq_self.mpr hbare
    rw [stripVkCallURL]
    rw [htrim, pastURL_of_not hnot, Option.map_some, cutAny_eq_self hclean, htrim, trimSlashes,
      trimMatches_eq_self.mpr hslash]
    split
    · rename_i hnil
      rw [hnil]
    · rfl

/-- What `stripVkCallURL` returns. -/
def stripped (t : CaseTable) (raw : GoString) : GoString := (stripVkCallURL t raw).getD []

theorem stripVkCallURL_eq_stripped (t : CaseTable) (raw : GoString) :
    stripVkCallURL t raw = some (stripped t raw) := by
  obtain ⟨h, hh⟩ := stripVkCallURL_total t raw
  rw [stripped, hh, Option.getD_some]

theorem stripped_of_trimSpace {t : CaseTable} {s s' : GoString} (h : trimSpace s = trimSpace s') :
    stripped t s = stripped t s' := by
  rw [stripped, stripVkCallURL, h, stripped, stripVkCallURL]

/-- `splitHashes` splits at these. -/
def fieldMark : Rune → Bool := Rune.is (· ∈ ['+', ',', ' ', '\t', '\n'])

/-- What is empty gives no hash, whether it was dropped before or after. -/
theorem splitHashes_eq (t : CaseTable) (raw : GoString) :
    splitHashes t raw =
      some (((raw.splitOnP fieldMark).map (stripped t)).filter (· ≠ [])) := by
  have hall : ∀ pieces : List GoString,
      pieces.mapM (stripVkCallURL t) = some (pieces.map (stripped t)) := by
    intro pieces
    induction pieces with
    | nil => rfl
    | cons piece pieces ih =>
      rw [List.mapM_cons, stripVkCallURL_eq_stripped, ih]
      rfl
  have hnil : stripped t [] = [] := rfl
  have hdrop : ∀ pieces : List GoString,
      ((pieces.filter fun w => !w.isEmpty).map (stripped t)).filter (· ≠ []) =
        (pieces.map (stripped t)).filter (· ≠ []) := by
    intro pieces
    induction pieces with
    | nil => rfl
    | cons piece pieces ih =>
      cases piece with
      | nil =>
        rw [List.filter_cons_of_neg (by simp), List.map_cons, hnil,
          List.filter_cons_of_neg (by simp), ih]
      | cons r piece =>
        rw [List.filter_cons_of_pos (by simp), List.map_cons, List.map_cons, List.filter_cons,
          List.filter_cons, ih]
  rw [splitHashes, hall, Option.map_some, fields]
  exact congrArg some (hdrop _)

/-- Is there a link in front of a hash, as the second reader looks for one? -/
def HasJoin (t : CaseTable) (s : GoString) : Prop :=
  (index? (ofChars vkJoin) (toLower t s)).isSome ∨
    (index? (ofChars join) (toLower t s)).isSome ∧ (index? (ofChars call) (toLower t s)).isSome

theorem not_hasJoin_nil (t : CaseTable) : ¬ HasJoin t [] := by
  have hvk : index? (ofChars vkJoin) [] = none := by decide
  have hj : index? (ofChars join) [] = none := by decide
  rintro (h | ⟨h, -⟩)
  · rw [toLower, List.map_nil, hvk] at h
    cases h
  · rw [toLower, List.map_nil, hj] at h
    cases h

theorem pastJoin_of_not {t : CaseTable} {s : GoString} (h : ¬ HasJoin t s) :
    pastJoin t s = some s := by
  simp only [HasJoin, not_or, not_and, Option.not_isSome_iff_eq_none] at h
  obtain ⟨hvk, hjoin⟩ := h
  rw [pastJoin]
  rw [hvk]
  cases hj : index? (ofChars join) (toLower t s) with
  | none => rfl
  | some i => rw [hjoin (by rw [hj]; rfl)]

/-- A link that is there is taken off, with at least one byte. -/
theorem pastJoin_shorter {t : CaseTable} {s rest : GoString} (h : HasJoin t s)
    (hrest : pastJoin t s = some rest) : byteLen rest < byteLen s := by
  have hvk : 0 < byteLen (ofChars vkJoin) := by decide
  have hj : 0 < byteLen (ofChars join) := by decide
  rw [pastJoin] at hrest
  split at hrest
  · have := byteLen_sliceFrom hrest
    omega
  · rename_i hnone
    split at hrest
    · have := byteLen_sliceFrom hrest
      omega
    · rename_i hnot
      rcases h with h | ⟨hjoin, hcall⟩
      · rw [hnone] at h
        cases h
      · obtain ⟨i, hi⟩ := Option.isSome_iff_exists.mp hjoin
        obtain ⟨j, hj⟩ := Option.isSome_iff_exists.mp hcall
        exact absurd hj (hnot i j hi)

theorem normalizeHashToken_shape {t : CaseTable} {raw h : GoString}
    (hh : normalizeHashToken t raw = some h) :
    (∀ r ∈ h, Rune.is (· ∈ ['?', '#', '&']) r = false) ∧ Bare (Rune.is (· = '/')) h := by
  rw [normalizeHashToken] at hh
  split at hh
  · obtain rfl : [] = h := Option.some.inj hh
    exact ⟨by simp, by simp [Bare]⟩
  · obtain ⟨s, -, rfl⟩ := Option.map_eq_some_iff.mp hh
    exact ⟨fun r hr => cut_clean ((trimMatches_part _ _).subset hr), trimMatches_bare _ _⟩

/-- Of what it left, the second reader leaves exactly what has no space at its ends and no
link in it. -/
theorem normalizeHashToken_again {t : CaseTable} {raw h : GoString}
    (hh : normalizeHashToken t raw = some h) :
    normalizeHashToken t h = some h ↔ Bare (Rune.is isWhitespace) h ∧ ¬ HasJoin t h := by
  obtain ⟨hclean, hslash⟩ := normalizeHashToken_shape hh
  refine ⟨fun hagain => ?_, fun ⟨hbare, hnot⟩ => ?_⟩
  · rw [normalizeHashToken] at hagain
    split at hagain
    · obtain rfl : [] = h := Option.some.inj hagain
      exact ⟨by simp [Bare], not_hasJoin_nil t⟩
    · obtain ⟨s, hs, hout⟩ := Option.map_eq_some_iff.mp hagain
      have hout_le : byteLen h ≤ byteLen s := by
        rw [← hout]
        exact byteLen_le_of_part (trimSlashes_cutAny_part _ s)
      have htrim_le := byteLen_le_of_part (trimSpace_part h)
      have hnot : ¬ HasJoin t (trimSpace h) := fun hj => by
        have := pastJoin_shorter hj hs
        omega
      rw [pastJoin_of_not hnot] at hs
      obtain rfl : trimSpace h = s := Option.some.inj hs
      have htrim : trimSpace h = h := eq_of_part_of_byteLen (trimSpace_part h) hout_le
      rw [htrim] at hnot
      exact ⟨trimMatches_eq_self.mp htrim, hnot⟩
  · have htrim : trimSpace h = h := trimMatches_eq_self.mpr hbare
    rw [normalizeHashToken]
    rw [htrim, pastJoin_of_not hnot, Option.map_some, cutAny_eq_self hclean, trimSlashes,
      trimMatches_eq_self.mpr hslash]
    split
    · rename_i hnil
      rw [hnil]
    · rfl

/-- A place in the lower-cased copy lies within the text when no rune of it grew. -/
theorem slice_in_range {t : CaseTable} {s needle : GoString} {i : Nat} (hgrow : NoneGrows t s)
    (hi : index? needle (toLower t s) = some i) :
    byteLen ((toLower t s).take i) + byteLen needle ≤ byteLen s := by
  have hneedle := byteLen_le_of_part (index?_sound hi).2.isInfix
  have hsplit : byteLen ((toLower t s).take i) + byteLen ((toLower t s).drop i) =
      byteLen (toLower t s) := by
    rw [← byteLen_append, List.take_append_drop]
  have := byteLen_toLower_le hgrow
  omega

theorem pastJoin_in_range {t : CaseTable} {s : GoString} (hgrow : NoneGrows t s) :
    ∃ rest, pastJoin t s = some rest := by
  have hslice : ∀ {needle : GoString} {i : Nat}, index? needle (toLower t s) = some i →
      ∃ rest, sliceFrom s (byteLen ((toLower t s).take i) + byteLen needle) = some rest := by
    intro needle i hi
    rw [← Option.ne_none_iff_exists', Ne, sliceFrom_eq_none]
    exact Nat.not_lt.mpr (slice_in_range hgrow hi)
  rw [pastJoin]
  split
  · rename_i hi
    exact hslice hi
  · split
    · rename_i hi _
      exact hslice hi
    · exact ⟨s, rfl⟩

/-- Nothing is sliced outside of a text none of whose runes grows in lower case. -/
theorem normalizeHashToken_in_range {t : CaseTable} {raw : GoString} (hgrow : NoneGrows t raw) :
    ∃ h, normalizeHashToken t raw = some h := by
  rw [normalizeHashToken]
  split
  · exact ⟨[], rfl⟩
  · obtain ⟨rest, hrest⟩ := pastJoin_in_range (t := t) (s := trimSpace raw)
      fun r hr => hgrow r ((trimSpace_part raw).subset hr)
    exact ⟨_, by rw [hrest, Option.map_some]⟩

/-- What `normalize_hash` reads, with what it does not. -/
structure Segment (h : List Char) : Prop where
  ne_nil : h ≠ []
  clean : ∀ c ∈ h, urlMark c = false
  trimmed : Bare isWhitespace h

theorem trimMatches_slash {h : List Char} (hclean : ∀ c ∈ h, urlMark c = false) :
    trimMatches (· = '/') h = h := by
  have hslash : ∀ c ∈ h, decide (c = '/') = false := fun c hc => by
    have := hclean c hc
    simp only [urlMark, List.mem_cons, not_or, decide_eq_false_iff_not] at this
    simpa using this.2.2.1
  refine trimMatches_eq_self.mpr ⟨fun c hc => hslash c (List.mem_of_mem_head? hc),
    fun c hc => hslash c (List.mem_of_mem_getLast? hc)⟩

theorem firstSegment_sound {value h : List Char} (hh : firstSegment value = some h) :
    h <:+: value ∧ Segment h := by
  rw [firstSegment] at hh
  have hclean : ∀ c ∈ trimMatches isWhitespace (cut urlMark value), urlMark c = false :=
    fun c hc => cut_clean ((trimMatches_part _ _).subset hc)
  rw [trimMatches_slash hclean] at hh
  split at hh
  · cases hh
  · rename_i hne
    obtain rfl := Option.some.inj hh
    exact ⟨(trimMatches_part _ _).trans (cut_part _ _), hne, hclean, trimMatches_bare _ _⟩

theorem firstSegment_of_segment {h : List Char} (hh : Segment h) {tail : List Char}
    (htail : ∀ c ∈ tail.head?, urlMark c = true) : firstSegment (h ++ tail) = some h := by
  rw [firstSegment]
  rw [cut_append hh.clean htail, trimMatches_eq_self.mpr hh.trimmed, trimMatches_slash hh.clean,
    if_neg hh.ne_nil]

theorem normalizeHash_sound {input h : List Char} (hh : normalizeHash input = some h) :
    h <:+: trimMatches bracket (trimMatches isWhitespace input) ∧ Segment h := by
  rw [normalizeHash] at hh
  dsimp only at hh
  split at hh
  · cases hh
  · split at hh
    · obtain ⟨hin, hseg⟩ := firstSegment_sound hh
      exact ⟨hin.trans (List.drop_suffix _ _).isInfix, hseg⟩
    · split at hh
      · cases hh
      · exact firstSegment_sound hh

/-- Lower-casing makes no slash. -/
theorem slash_not_mem_toLower {l : List Char} (h : '/' ∉ l) : '/' ∉ l.map Char.toLower := by
  simp only [List.mem_map, not_exists, not_and]
  intro c hc hlow
  have hself : c.toLower = c := toLower_eq_self (by rw [hlow]; decide)
  exact h (by rwa [← hlow, hself])

/-- Without a slash there is neither a call link nor another URL. -/
theorem normalizeHash_of_no_slash {input : List Char}
    (hslash : '/' ∉ trimMatches bracket (trimMatches isWhitespace input))
    (hne : trimMatches bracket (trimMatches isWhitespace input) ≠ []) :
    normalizeHash input =
      firstSegment (trimMatches bracket (trimMatches isWhitespace input)) := by
  have hlow := slash_not_mem_toLower hslash
  have hurl : ∀ url : List Char, '/' ∈ url →
      ¬ url <+: (trimMatches bracket (trimMatches isWhitespace input)).map Char.toLower :=
    fun url hurl hpre => hlow (hpre.subset hurl)
  rw [normalizeHash]
  dsimp only
  rw [if_neg hne, index?_eq_none (c := '/') (by decide) hlow]
  dsimp only
  rw [if_neg]
  rintro (h | h)
  · exact hurl _ (by decide) h
  · exact hurl _ (by decide) h

/-- Of what it read, the engine's reader reads the same again exactly when no bracket or
quote stands at its ends. -/
theorem normalizeHash_again {h : List Char} :
    normalizeHash h = some h ↔ Segment h ∧ Bare bracket h := by
  refine ⟨fun hh => ?_, fun ⟨hseg, hbare⟩ => ?_⟩
  · obtain ⟨hin, hseg⟩ := normalizeHash_sound hh
    rw [trimMatches_eq_self.mpr hseg.trimmed] at hin
    -- it is as long as what is left when its brackets are gone
    have hsame : trimMatches bracket h = h :=
      ((trimMatches_part bracket h).eq_of_length_le hin.length_le)
    exact ⟨hseg, trimMatches_eq_self.mp hsame⟩
  · have htrim : trimMatches bracket (trimMatches isWhitespace h) = h := by
      rw [trimMatches_eq_self.mpr hseg.trimmed, trimMatches_eq_self.mpr hbare]
    have hslash : '/' ∉ h := fun hmem => by
      have := hseg.clean '/' hmem
      revert this
      decide
    have hwhole : firstSegment (h ++ []) = some h := firstSegment_of_segment hseg (by simp)
    rw [normalizeHash_of_no_slash (by rwa [htrim]) (by rw [htrim]; exact hseg.ne_nil), htrim]
    rwa [List.append_nil] at hwhole

end Csqtt.VkHash
