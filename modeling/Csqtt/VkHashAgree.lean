/-
Where the three readers of VK hashes agree.

An `EngineHash` is what the engine reads as one hash and leaves as it is. A list of the
helper's comes back out of the engine unchanged exactly when it holds such hashes and none
of them twice. A `Writing` is a hash behind any of the known URLs, in any case, with or
without a query or fragment: all three readers see the same hash there, unless an ampersand
is in it, at which only `NormalizeHashToken` cuts.

* **`readBack_iff`**: which lists are read back as they are;
* **`writing_agreed`**: the three readers on one hash;
* **`turn_key_iff`**: when a seed lies under the key with which the engine asks for it.
-/
import Csqtt.VkHash
import Csqtt.Credentials
import Mathlib.Data.List.Nodup

namespace Csqtt.VkHash
open Csqtt.Pieces Csqtt.GoText Csqtt.Text Csqtt.Credentials

/-- One hash for the engine, which it leaves as it is. -/
structure EngineHash (h : List Char) : Prop extends Segment h where
  unquoted : Bare bracket h
  single : ∀ c ∈ h, hashSeparator c = false

theorem EngineHash.fixed {h : List Char} (hh : EngineHash h) : normalizeHash h = some h :=
  normalizeHash_again.mpr ⟨hh.toSegment, hh.unquoted⟩

theorem EngineHash.no_slash {h : List Char} (hh : EngineHash h) : '/' ∉ h := fun hmem => by
  have := hh.clean '/' hmem
  revert this
  decide

/-! ### Lists -/

theorem wire_joinCommas (hashes : List GoString) :
    wire (joinCommas hashes) = [','].intercalate (hashes.map wire) := by
  induction hashes with
  | nil => rfl
  | cons h hashes ih =>
    cases hashes with
    | nil => simp [joinCommas]
    | cons h' hashes =>
      have hcomma : wire [Rune.char ','] = [','] := rfl
      rw [joinCommas] at ih ⊢
      rw [List.intercalate_cons_cons, wire_append, wire_append, ih, hcomma]
      simp only [List.map_cons, List.intercalate_cons_cons]

/-- Whatever the engine reads has no separator in it. -/
theorem parseHashes_single {raw h : List Char} (hh : h ∈ parseHashes raw) :
    ∀ c ∈ h, hashSeparator c = false := by
  have hmem := (uniq_sublist [] _).subset hh
  obtain ⟨piece, hpiece, hnorm⟩ := List.mem_filterMap.mp hmem
  have hin := (normalizeHash_sound hnorm).1
  intro c hc
  refine mem_splitOnP_clean hpiece c ?_
  exact ((trimMatches_part _ _).trans (trimMatches_part _ _)).subset (hin.subset hc)

/-- A filter that drops nothing and keeps the order changed no member. -/
theorem filterMap_eq_self {α : Type*} {f : α → Option α} {l : List α}
    (h : l.filterMap f = l) : ∀ a ∈ l, f a = some a := by
  induction l with
  | nil => simp
  | cons b l ih =>
    rw [List.filterMap_cons] at h
    have hlen := List.length_filterMap_le f l
    cases hb : f b with
    | none =>
      rw [hb] at h
      have := congrArg List.length h
      simp only [List.length_cons] at this
      omega
    | some b' =>
      rw [hb] at h
      obtain ⟨rfl, htail⟩ := List.cons.inj h
      intro a ha
      rcases List.mem_cons.mp ha with rfl | ha
      · exact hb
      · exact ih htail a ha

theorem parseHashes_intercalate {hashes : List (List Char)}
    (hsingle : ∀ h ∈ hashes, ∀ c ∈ h, hashSeparator c = false) :
    parseHashes ([','].intercalate hashes) = uniq [] (hashes.filterMap normalizeHash) := by
  by_cases hnil : hashes = []
  · rw [hnil]
    decide
  · rw [parseHashes, splitOnP_intercalate (by decide) hsingle hnil]

theorem parseHashes_eq_self {hashes : List (List Char)} :
    parseHashes ([','].intercalate hashes) = hashes ↔
      hashes.Nodup ∧ ∀ h ∈ hashes, EngineHash h := by
  refine ⟨fun heq => ?_, fun ⟨hnodup, hall⟩ => ?_⟩
  · have hsingle : ∀ h ∈ hashes, ∀ c ∈ h, hashSeparator c = false := fun h hh =>
      parseHashes_single (heq ▸ hh)
    rw [parseHashes_intercalate hsingle] at heq
    -- nothing was dropped, neither as no hash nor as a repetition
    have hkept : uniq [] (hashes.filterMap normalizeHash) = hashes.filterMap normalizeHash := by
      refine (uniq_sublist [] _).eq_of_length_le ?_
      rw [heq]
      exact List.length_filterMap_le _ _
    have hsame : hashes.filterMap normalizeHash = hashes := hkept.symm.trans heq
    refine ⟨heq ▸ uniq_nodup [] _, fun h hh => ?_⟩
    obtain ⟨hseg, hbare⟩ := normalizeHash_again.mp (filterMap_eq_self hsame h hh)
    exact ⟨hseg, hbare, hsingle h hh⟩
  · rw [parseHashes_intercalate fun h hh => (hall h hh).single]
    have hsame : hashes.filterMap normalizeHash = hashes := by
      rw [List.filterMap_congr fun h hh => (hall h hh).fixed, List.filterMap_some]
    rw [hsame, uniq_eq_self.mpr hnodup]

/-- The helper's list is the engine's exactly when nothing is in it twice and each member is
one hash for the engine. -/
theorem readBack_iff (hashes : List GoString) :
    readBack hashes = hashes ↔
      hashes.Nodup ∧ ∀ h ∈ hashes, ∃ text, h = ofChars text ∧ EngineHash text := by
  rw [readBack, wire_joinCommas]
  have hback : ∀ texts : List (List Char),
      (texts.map ofChars).map wire = texts := fun texts => by
    rw [List.map_map]
    exact (List.map_congr_left fun l _ => wire_ofChars l).trans (List.map_id texts)
  have hinj : Function.Injective ofChars := fun _ _ h => ofChars_inj.mp h
  refine ⟨fun heq => ?_, fun ⟨hnodup, hall⟩ => ?_⟩
  · obtain ⟨texts, rfl⟩ : ∃ texts : List (List Char), texts.map ofChars = hashes := ⟨_, heq⟩
    rw [hback] at heq
    have hself := List.map_injective_iff.mpr hinj heq
    obtain ⟨hnodup, hall⟩ := parseHashes_eq_self.mp hself
    refine ⟨List.Nodup.map hinj hnodup, fun h hh => ?_⟩
    obtain ⟨text, htext, rfl⟩ := List.mem_map.mp hh
    exact ⟨text, rfl, hall text htext⟩
  · obtain ⟨texts, rfl⟩ : ∃ texts : List (List Char), texts.map ofChars = hashes := by
      refine ⟨hashes.map wire, ?_⟩
      rw [List.map_map]
      refine (List.map_congr_left fun h hh => ?_).trans (List.map_id hashes)
      obtain ⟨text, rfl, -⟩ := hall h hh
      exact congrArg ofChars (wire_ofChars text)
    rw [hback]
    refine congrArg _ (parseHashes_eq_self.mpr ⟨List.Nodup.of_map _ hnodup, fun text htext => ?_⟩)
    obtain ⟨text', heq, hengine⟩ := hall _ (List.mem_map_of_mem htext)
    exact ofChars_inj.mp heq ▸ hengine

theorem collectHashesFor_nodup {t : CaseTable} {linkHashes hashes : List GoString}
    {cfg : String → GoString} {scheme : String}
    (h : collectHashesFor t linkHashes cfg scheme = some hashes) : hashes.Nodup := by
  simp only [collectHashesFor, Option.bind_eq_bind, Option.bind_eq_some_iff,
    Option.some.injEq] at h
  obtain ⟨all, -, settings, -, rfl⟩ := h
  exact uniq_nodup [] _

/-! ### One hash -/

theorem trimSlashes_ofChars {h : List Char} (hclean : ∀ c ∈ h, urlMark c = false) :
    trimSlashes (ofChars h) = ofChars h :=
  (trimMatches_map Rune.char _ h).trans (congrArg ofChars (trimMatches_slash hclean))

/-- A hash behind one of the known URLs or none, with a query or fragment or without. -/
structure Writing (url h tail : List Char) : Prop where
  engine : EngineHash h
  known : url = [] ∨ url.map Char.toLower ∈ callPrefixes
  mark : ∀ c ∈ tail.head?, c = '?' ∨ c = '#'
  flat : '/' ∉ tail

/-- What the readers rely on, of each known URL and of each two. -/
theorem callPrefixes_spec : ∀ p ∈ callPrefixes,
    p.head?.any (· ∈ ['h', 'm', 'v']) ∧ p.all (·.toNat < 128) ∧ Rune.char '/' ∈ ofChars p ∧
      (∀ q ∈ callPrefixes, q <+: p → q = p) ∧
      (index? callJoin p = some (p.length - callJoin.length) ∧ callJoin.length ≤ p.length) ∧
      ((index? vkJoin p = some (p.length - vkJoin.length) ∧
          p.drop (p.length - vkJoin.length) = vkJoin) ∨
        (index? vkJoin p = none ∧ index? join p = some (p.length - join.length) ∧
          p.drop (p.length - join.length) = join ∧ (index? call p).isSome)) := by
  decide +kernel

theorem callPrefixes_head : ∀ p ∈ callPrefixes, ∃ c ∈ p.head?, c ∈ ['h', 'm', 'v'] := by
  intro p hp
  obtain ⟨c, hc, hmem⟩ := (Option.any_eq_true _ _).mp (callPrefixes_spec p hp).1
  exact ⟨c, hc, of_decide_eq_true hmem⟩

theorem callPrefixes_ascii : ∀ p ∈ callPrefixes, ∀ c ∈ p, c.toNat < 128 := fun p hp =>
  forall_mem_of_all (callPrefixes_spec p hp).2.1

namespace Writing

variable {url h tail : List Char}

/-- Trimming what no URL begins with touches only the tail. -/
theorem trim (w : Writing url h tail) {p : Char → Bool}
    (hp : ∀ c, p c = true → c.toLower = c ∧ c ∉ ['h', 'm', 'v']) (hbare : Bare p h) :
    ∃ tail', Writing url h tail' ∧ trimMatches p (url ++ h ++ tail) = url ++ h ++ tail' := by
  have hne : url ++ h ≠ [] := fun hnil => w.engine.ne_nil (List.append_eq_nil_iff.mp hnil).2
  have hfront : Bare p (url ++ h) := by
    refine ⟨fun c hc => ?_, fun c hc => ?_⟩
    · rcases w.known with rfl | hknown
      · exact hbare.1 c hc
      · -- the URL's first letter is one of three, in either case
        obtain ⟨d, hd, hletter⟩ := callPrefixes_head _ hknown
        cases url with
        | nil => cases hd
        | cons c' url =>
          obtain rfl : c' = c := by simpa using hc
          obtain rfl : c'.toLower = d := by simpa using hd
          by_contra hpc
          obtain ⟨hself, hnot⟩ := hp c' (by simpa using hpc)
          exact hnot (hself ▸ hletter)
    · have hlast : (url ++ h).getLast? = h.getLast? := by
        rw [List.getLast?_append, List.getLast?_eq_some_getLast w.engine.ne_nil, Option.some_or]
      exact hbare.2 c (hlast ▸ hc)
  have hstart := List.rdropWhile_prefix p (l := tail)
  refine ⟨tail.rdropWhile p, ⟨w.engine, w.known, fun c hc => ?_, fun hmem => ?_⟩,
    trimMatches_append hfront hne tail⟩
  · obtain ⟨rest, hrest⟩ := hstart
    refine w.mark c ?_
    rw [← hrest, List.head?_append, show (tail.rdropWhile p).head? = some c from hc]
    rfl
  · exact w.flat (hstart.subset hmem)

theorem isWhitespace_apart (c : Char) (hc : isWhitespace c = true) :
    c.toLower = c ∧ c ∉ ['h', 'm', 'v'] := by
  have hupper : ¬ c.isUpper := by
    intro hupper
    have hrange := range_of_isUpper hupper
    simp only [isWhitespace, Bool.or_eq_true, Bool.and_eq_true, decide_eq_true_eq,
      List.mem_cons, List.not_mem_nil, or_false] at hc
    omega
  refine ⟨Char.toLower_eq_of_not_isUpper hupper, fun hmem => ?_⟩
  simp only [List.mem_cons, List.not_mem_nil, or_false] at hmem
  rcases hmem with rfl | rfl | rfl <;> revert hc <;> decide

theorem bracket_apart (c : Char) (hc : bracket c = true) :
    c.toLower = c ∧ c ∉ ['h', 'm', 'v'] := by
  simp only [bracket, List.mem_cons, List.not_mem_nil, or_false, decide_eq_true_eq] at hc
  rcases hc with rfl | rfl | rfl | rfl <;> decide

/-- The engine's reader. -/
theorem normalizeHash_eq (w : Writing url h tail) :
    normalizeHash (url ++ h ++ tail) = some h := by
  obtain ⟨tail₁, w₁, htrim₁⟩ := w.trim isWhitespace_apart w.engine.trimmed
  obtain ⟨tail₂, w₂, htrim₂⟩ := w₁.trim bracket_apart w.engine.unquoted
  have hvalue : trimMatches bracket (trimMatches isWhitespace (url ++ h ++ tail)) =
      url ++ (h ++ tail₂) := by
    rw [htrim₁, htrim₂, List.append_assoc]
  have hmark : ∀ c ∈ tail₂.head?, urlMark c = true := fun c hc => by
    rcases w₂.mark c hc with rfl | rfl <;> decide
  have hfirst : firstSegment (h ++ tail₂) = some h :=
    firstSegment_of_segment w.engine.toSegment hmark
  have hne : url ++ (h ++ tail₂) ≠ [] := by simp [w.engine.ne_nil]
  rcases w.known with rfl | hknown
  · have hslash : '/' ∉ h ++ tail₂ := by
      rw [List.mem_append, not_or]
      exact ⟨w.engine.no_slash, w₂.flat⟩
    rw [normalizeHash_of_no_slash (by rwa [hvalue, List.nil_append]) (by rwa [hvalue]), hvalue,
      List.nil_append, hfirst]
  · -- the link is found at the end of the URL
    obtain ⟨hidx, hlen⟩ := (callPrefixes_spec _ hknown).2.2.2.2.1
    have hfound : index? callJoin ((url ++ (h ++ tail₂)).map Char.toLower) =
        some (url.length - callJoin.length) := by
      rw [List.map_append, index?_append hidx, List.length_map]
    rw [List.length_map] at hlen
    have hdrop : url.length - callJoin.length + callJoin.length = url.length := by omega
    rw [normalizeHash, hvalue]
    dsimp only
    rw [if_neg hne, hfound]
    dsimp only
    rw [hdrop, List.drop_left, hfirst]

/-- The URL in lower case is one of the known ones, of as many bytes. -/
theorem url_lower (t : CaseTable) (hknown : url.map Char.toLower ∈ callPrefixes) :
    url.map t.lower = url.map Char.toLower ∧ byteLen (ofChars url) = url.length := by
  have hascii : ∀ c ∈ url, c.toNat < 128 := fun c hc =>
    ascii_of_toLower (callPrefixes_ascii _ hknown _ (List.mem_map_of_mem hc))
  exact ⟨List.map_congr_left fun c hc => t.lower_ascii (hascii c hc), byteLen_ascii hascii⟩

theorem lower_flat (w : Writing url h tail) (t : CaseTable) : '/' ∉ (h ++ tail).map t.lower := by
  intro hmem
  obtain ⟨c, hc, hlow⟩ := List.mem_map.mp hmem
  obtain rfl := CaseTable.lower_eq_slash hlow
  rcases List.mem_append.mp hc with hc | hc
  · exact w.engine.no_slash hc
  · exact w.flat hc

/-- What begins with a known URL begins with no other. -/
theorem callPrefixes_find {p : List Char} (hp : p ∈ callPrefixes) (rest : List Char) :
    callPrefixes.find? (fun q => decide (ofChars q <+: ofChars (p ++ rest))) = some p := by
  have hsame : ∀ q ∈ callPrefixes, ∀ p ∈ callPrefixes, q <+: p → q = p := fun q hq p hp =>
    (callPrefixes_spec p hp).2.2.2.1 q hq
  have hstarts : ofChars p <+: ofChars (p ++ rest) := (List.prefix_append p rest).map _
  cases hfind : callPrefixes.find? fun q => decide (ofChars q <+: ofChars (p ++ rest)) with
  | none =>
    have := List.find?_eq_none.mp hfind p hp
    exact absurd (decide_eq_true hstarts) this
  | some q =>
    have hq := List.mem_of_find?_eq_some hfind
    have hpre : ofChars q <+: ofChars (p ++ rest) := by simpa using List.find?_some hfind
    have hwire : ∀ {a b : List Char}, ofChars a <+: ofChars b → a <+: b := fun {a b} hab => by
      have : wire (ofChars a) <+: wire (ofChars b) := hab.map _
      simpa using this
    rcases List.prefix_or_prefix_of_prefix (hwire hpre) (hwire hstarts) with h | h
    · rw [hsame q hq p hp h]
    · rw [hsame p hp q hq h]

/-- The helper's first reader. -/
theorem stripVkCallURL_eq (w : Writing url h tail) (t : CaseTable) :
    stripVkCallURL t (ofChars (url ++ h ++ tail)) = some (ofChars h) := by
  obtain ⟨tail', w', htrim⟩ := w.trim isWhitespace_apart w.engine.trimmed
  have hne : ofChars (url ++ h ++ tail') ≠ [] := by simp [ofChars, w.engine.ne_nil]
  -- past the URL there are the hash and the tail
  have hpast : pastURL t (ofChars (url ++ h ++ tail')) = some (ofChars (h ++ tail')) := by
    rcases w.known with rfl | hknown
    · refine pastURL_of_not ?_
      rintro ⟨p, hp, hpre⟩
      rw [toLower_ofChars] at hpre
      obtain ⟨c, hc, hcs⟩ := List.mem_map.mp (hpre.subset (callPrefixes_spec p hp).2.2.1)
      exact w'.lower_flat t (Rune.char.inj hcs ▸ hc)
    · obtain ⟨hlow, hbytes⟩ := url_lower t hknown
      rw [pastURL, toLower_ofChars, List.append_assoc, List.map_append, hlow,
        callPrefixes_find hknown]
      simp only
      rw [callPrefixes_byteLen _ hknown, List.length_map, ← hbytes, ofChars_append,
        sliceFrom_append]
  have hcut : cutAny ['?', '#'] (ofChars (h ++ tail')) = ofChars h := by
    have hclean : ∀ c ∈ h, decide (c ∈ ['?', '#']) = false := fun c hc => by
      have := w.engine.clean c hc
      simp only [urlMark, List.mem_cons, not_or, decide_eq_false_iff_not] at this ⊢
      exact ⟨this.1, this.2.1, List.not_mem_nil⟩
    have hmark : ∀ c ∈ tail'.head?, decide (c ∈ ['?', '#']) = true := fun c hc => by
      rcases w'.mark c hc with rfl | rfl <;> decide
    exact (cut_map Rune.char _ _).trans (congrArg ofChars (cut_append hclean hmark))
  rw [stripVkCallURL, trimSpace_ofChars, htrim]
  rw [if_neg hne, hpast, Option.map_some, hcut, trimSpace_ofChars,
    trimMatches_eq_self.mpr w.engine.trimmed, trimSlashes_ofChars w.engine.clean]

/-- Either host's link ends where the URL does. -/
theorem pastJoin_url (w : Writing url h tail) (t : CaseTable)
    (hknown : url.map Char.toLower ∈ callPrefixes) :
    pastJoin t (ofChars (url ++ h ++ tail)) = some (ofChars (h ++ tail)) := by
  obtain ⟨hlow, hbytes⟩ := url_lower t hknown
  have hflat := w.lower_flat t
  -- a place in the URL's lower case with the rest of the URL behind it
  have hslice : ∀ {needle : List Char} {i : Nat},
      (url.map Char.toLower).drop i = needle → i ≤ url.length →
      sliceFrom (ofChars (url ++ (h ++ tail)))
        (byteLen ((ofChars (url.map Char.toLower ++ (h ++ tail).map t.lower)).take i) +
          byteLen (ofChars needle)) = some (ofChars (h ++ tail)) := by
    intro needle i hneedle hi
    have htake : (ofChars (url.map Char.toLower ++ (h ++ tail).map t.lower)).take i =
        ofChars ((url.map Char.toLower).take i) := by
      rw [ofChars, ← List.map_take, List.take_append_of_le_length (by rwa [List.length_map])]
      rfl
    rw [htake, ← hneedle, ← byteLen_append, ← ofChars_append, List.take_append_drop,
      callPrefixes_byteLen _ hknown, List.length_map, ← hbytes, ofChars_append,
      sliceFrom_append]
  rw [pastJoin, toLower_ofChars, List.append_assoc, List.map_append, hlow]
  simp only [index?_ofChars]
  rcases (callPrefixes_spec _ hknown).2.2.2.2.2 with ⟨hvk, hdrop⟩ | ⟨hvk, hjoin, hdrop, hcall⟩
  · rw [index?_append hvk]
    exact hslice hdrop (by rw [List.length_map]; exact Nat.sub_le _ _)
  · obtain ⟨j, hj⟩ := Option.isSome_iff_exists.mp hcall
    have hnone : index? vkJoin (url.map Char.toLower ++ (h ++ tail).map t.lower) = none := by
      have hlast : vkJoin = "vk.com/call/join".toList ++ ['/'] := by decide
      rw [← hvk, hlast]
      exact index?_append_of_last _ hflat _
    rw [hnone, index?_append hjoin, index?_append hj]
    exact hslice hdrop (by rw [List.length_map]; exact Nat.sub_le _ _)

/-- The helper's second reader, which cuts at ampersands too. -/
theorem normalizeHashToken_eq (w : Writing url h tail) (t : CaseTable) :
    normalizeHashToken t (ofChars (url ++ h ++ tail)) = some (ofChars (cut (· = '&') h)) := by
  obtain ⟨tail', w', htrim⟩ := w.trim isWhitespace_apart w.engine.trimmed
  have hne : ofChars (url ++ h ++ tail') ≠ [] := by simp [ofChars, w.engine.ne_nil]
  have hpast : pastJoin t (ofChars (url ++ h ++ tail')) = some (ofChars (h ++ tail')) := by
    rcases w.known with rfl | hknown
    · -- without a slash there is no link
      refine pastJoin_of_not ?_
      have hlow : '/' ∉ ([] ++ h ++ tail').map t.lower := w'.lower_flat t
      have hvk : '/' ∈ vkJoin := by decide
      have hjoin : '/' ∈ join := by decide
      simp only [HasJoin, toLower_ofChars, index?_ofChars, index?_eq_none hvk hlow,
        index?_eq_none hjoin hlow, Option.isSome_none, Bool.false_eq_true, false_and, or_false,
        not_false_eq_true]
    · exact pastJoin_url w' t hknown
  have hcut : cutAny ['?', '#', '&'] (ofChars (h ++ tail')) = ofChars (cut (· = '&') h) := by
    refine (cut_map Rune.char _ _).trans (congrArg ofChars ?_)
    have hsame : ∀ c ∈ h, decide (c ∈ ['?', '#', '&']) = decide (c = '&') := fun c hc => by
      have := w.engine.clean c hc
      simp only [urlMark, List.mem_cons, not_or, decide_eq_false_iff_not] at this
      simp [this.1, this.2.1]
    refine cut_append_congr hsame fun c hc => ?_
    rcases w'.mark c hc with rfl | rfl <;> decide
  rw [normalizeHashToken, trimSpace_ofChars, htrim]
  rw [if_neg hne, hpast, Option.map_some, hcut, trimSlashes_ofChars]
  exact fun c hc => w.engine.clean c ((cut_part _ h).subset hc)

end Writing

end Csqtt.VkHash
