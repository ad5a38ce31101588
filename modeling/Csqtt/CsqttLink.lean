/-
`csqtt://` links: made of a JSON object and read again.

`normalizeCsqtt` takes the fields of an object, trims them, and writes a link, the hashes
normalised and joined with spaces; `parseCsqttLink` reads one. What escapes and parses URLs
and JSON is a parameter: `NetURL`, of which a link that is made needs to be read back
(`NetURL.Inverse`), and `unmarshal`.

* **`link_read`**: the link of an accepted object is read back, with its trimmed fields;
* **`resplit_eq_self`**: its hashes, split once more, are the same exactly when each is one
  that `stripVkCallURL` leaves alone.
-/
import Csqtt.VkHashAgree

namespace Csqtt.Link
open Csqtt.Pieces Csqtt.GoText Csqtt.Text Csqtt.VkHash

/-- `linkScheme`. -/
def linkScheme : List Char := "csqtt".toList

/-- `linkHostConnect`. -/
def linkHostConnect : List Char := "connect".toList

/-- `url.Values`. -/
abbrev Values := String → List GoString

def Values.set (q : Values) (key : String) (value : GoString) : Values :=
  Function.update q key [value]

def Values.get (q : Values) (key : String) : GoString := (q key).head?.getD []

/-- A `url.URL`, with what `Query` makes of it. -/
structure URL where
  scheme : GoString
  /-- The user's name and password. -/
  user : Option (GoString × Option GoString)
  host : GoString
  path : GoString
  fragment : GoString
  query : Values

/-- What is used of `net/url`, `net` and `fmt`. -/
structure NetURL where
  parse : GoString → Except String URL
  encode : Values → GoString
  pathEscape : GoString → GoString
  splitHostPort : GoString → Option (GoString × GoString)
  joinHostPort : GoString → GoString → GoString
  /-- The verb `%q`. -/
  quote : GoString → String

/-- One step of `strings.EqualFold` against a small letter of ASCII. -/
def foldsTo (r : Rune) (c : Char) : Bool :=
  match r with
  | .char d => d.toLower = c || d = '\u017f' && c = 's' || d = '\u212a' && c = 'k'
  | .byte _ => false

/-- `strings.EqualFold` against small letters of ASCII. -/
def equalFold (s : GoString) (letters : List Char) : Bool :=
  s.length = letters.length && (s.zip letters).all fun p => foldsTo p.1 p.2

structure CsqttLink where
  host : GoString
  peer : GoString
  password : GoString
  hashes : List GoString
  name : GoString
deriving DecidableEq

def CsqttLink.peerAddr (net : NetURL) (l : CsqttLink) : GoString :=
  let peer := trimSpace l.peer
  let host := trimSpace l.host
  if .char ':' ∈ peer then peer
  else if host = [] then peer
  else if peer = [] then host
  else net.joinHostPort host peer

/-- The links that `normalizeCsqtt` makes. -/
def parseConnect (t : CaseTable) (name : GoString) (q : Values) :
    Option (Except String CsqttLink) :=
  (splitHashes t (q.get "hashes")).map fun hashes =>
    let l : CsqttLink := ⟨trimSpace (q.get "host"), trimSpace (q.get "peer"),
      trimSpace (q.get "password"), hashes, name⟩
    if l.password = [] then .error "connect: missing password="
    else if l.host = [] ∧ l.peer = [] then .error "connect: missing host=/peer="
    else .ok l

/-- Links with a password in front of the host. -/
def parseLegacy (t : CaseTable) (net : NetURL) (name : GoString) (u : URL) :
    Option (Except String CsqttLink) :=
  let login : GoString × GoString := match u.user with
    | some (username, some password) => (password, username)
    | some (username, none) => (username, [])
    | none => ([], [])
  let h := trimSpace u.host
  let peer := h
  let host := if h = [] then login.2 else match net.splitHostPort h with
    | some (hostOnly, _) => hostOnly
    | none => h
  let extra := u.query.get "hashes"
  (if extra = [] then some [] else splitHashes t extra).map fun hashes =>
    let l : CsqttLink := ⟨host, peer, login.1, hashes, name⟩
    if l.password = [] ∨ l.peerAddr net = [] then
      .error "legacy link needs password@host:port"
    else .ok l

/-- `parseCsqttLink`, `none` where it panics. -/
def parseCsqttLink (t : CaseTable) (net : NetURL) (raw : GoString) :
    Option (Except String CsqttLink) :=
  let s := trimSpace raw
  if s = [] then some (.error "empty link") else
  match net.parse s with
  | .error err => some (.error ("parse " ++ net.quote s ++ ": " ++ err))
  | .ok u =>
    if ¬ equalFold u.scheme linkScheme then some (.error "not a csqtt:// link") else
    let name := trimSpace u.fragment
    let host := toLower t (trimSpace u.host)
    if host = ofChars linkHostConnect ∨
        u.host = [] ∧ equalFold (trimSlashes u.path) linkHostConnect then
      parseConnect t name u.query
    else parseLegacy t net name u

/-! ### The link of an object -/

/-- A JSON value, as far as it is looked at. -/
inductive JsonValue where
  | string (s : GoString)
  | other

/-- A `map[string]any`. -/
abbrev Object := String → Option JsonValue

/-- The text under a key, empty if there is none. -/
def Object.text (m : Object) (k : String) : GoString :=
  match m k with
  | some (.string v) => v
  | _ => []

/-- `str`. -/
def Object.str (m : Object) (k : String) : GoString := trimSpace (m.text k)

/-- `strings.Join(hashes, " ")`. -/
def joinSpaces (hashes : List GoString) : GoString := [Rune.char ' '].intercalate hashes

/-- The query of the link without its hashes. -/
def linkFields (m : Object) : Values :=
  let q : Values := fun _ => []
  let q := q.set "v" (ofChars "2".toList)
  let q := if m.str "host" = [] then q else q.set "host" (m.str "host")
  let q := if m.str "peer" = [] then q else q.set "peer" (m.str "peer")
  q.set "password" (m.str "password")

def linkValues (t : CaseTable) (m : Object) : Option Values :=
  if m.str "hashes" = [] then some (linkFields m)
  else (splitHashes t (m.str "hashes")).map fun hashes =>
    (linkFields m).set "hashes" (joinSpaces hashes)

def makeLink (net : NetURL) (q : Values) (name : GoString) : GoString :=
  ofChars (linkScheme ++ "://".toList ++ linkHostConnect ++ "?".toList) ++ net.encode q ++
    if name = [] then [] else .char '#' :: net.pathEscape name

/-- `normalizeCsqtt`, `none` where it panics; what is not accepted gives no link. -/
def normalizeCsqtt (t : CaseTable) (net : NetURL) (unmarshal : GoString → Option Object)
    (raw : GoString) : Option GoString :=
  let s := trimSpace raw
  if s = [] ∨ ofChars (linkScheme ++ "://".toList) <+: toLower t s then some [] else
  if ¬ [Rune.char '\x7b'] <+: s then some [] else
  match unmarshal s with
  | none => some []
  | some m =>
    if m.str "password" = [] ∨ m.str "host" = [] ∧ m.str "peer" = [] then some []
    else (linkValues t m).map fun q => makeLink net q (m.str "name")

/-- The link of this query and name is read as what it was made of, and nothing of it is
space. -/
structure NetURL.Inverse (net : NetURL) (q : Values) (name : GoString) : Prop where
  bare : Bare (Rune.is isWhitespace) (makeLink net q name)
  parsed : ∃ u, net.parse (makeLink net q name) = .ok u ∧ u.scheme = ofChars linkScheme ∧
    u.host = ofChars linkHostConnect ∧ u.query = q ∧ u.fragment = name

/-! ### Hashes, split twice -/

/-- White space at the ends makes no hash and changes none. -/
theorem splitHashes_cons {t : CaseTable} {r : Rune} (hr : Rune.is isWhitespace r = true)
    (s : GoString) : splitHashes t (r :: s) = splitHashes t s := by
  rw [splitHashes_eq, splitHashes_eq, List.splitOnP_cons_eq_if_modifyHead]
  split
  · rw [List.map_cons, List.filter_cons_of_neg (by simp [stripped, stripVkCallURL, trimSpace,
      trimMatches])]
  · obtain ⟨w, ws, hw⟩ := List.exists_cons_of_ne_nil (List.splitOnP_ne_nil fieldMark s)
    have hsame : stripped t (r :: w) = stripped t w :=
      stripped_of_trimSpace (trimMatches_cons hr w)
    rw [hw, List.modifyHead_cons, List.map_cons, List.map_cons, hsame]

theorem splitHashes_concat {t : CaseTable} {r : Rune} (hr : Rune.is isWhitespace r = true)
    (s : GoString) : splitHashes t (s ++ [r]) = splitHashes t s := by
  obtain ⟨front, last, hsplit, hconcat⟩ := splitOnP_concat fieldMark s r
  rw [splitHashes_eq, splitHashes_eq, hsplit, hconcat]
  split
  · have hcons : front ++ [last, []] = (front ++ [last]) ++ [[]] := by simp
    rw [hcons, List.map_append, List.filter_append]
    simp [stripped, stripVkCallURL, trimSpace, trimMatches]
  · have hsame : stripped t (last ++ [r]) = stripped t last :=
      stripped_of_trimSpace (trimMatches_concat hr last)
    rw [List.map_append, List.map_append, List.map_singleton, List.map_singleton, hsame]

theorem splitHashes_trimSpace (t : CaseTable) (s : GoString) :
    splitHashes t (trimSpace s) = splitHashes t s :=
  trimMatches_invariant (fun _ l hr => splitHashes_cons hr l)
    (fun _ l hr => splitHashes_concat hr l) s

/-- No reader adds a separator. -/
theorem stripped_single {t : CaseTable} {w : GoString} (hw : ∀ r ∈ w, fieldMark r = false) :
    ∀ r ∈ stripped t w, fieldMark r = false := by
  have hstrip := stripVkCallURL_eq_stripped t w
  rw [stripVkCallURL] at hstrip
  intro r hr
  split at hstrip
  · rw [← Option.some.inj hstrip] at hr
    cases hr
  · obtain ⟨past, hpast, heq⟩ := Option.map_eq_some_iff.mp hstrip
    rw [← heq] at hr
    have hmem : r ∈ past :=
      ((trimMatches_part _ _).trans ((trimSpace_part _).trans (cut_part _ past))).subset hr
    rcases mem_pastURL hpast hmem with hmem | ⟨b, rfl⟩
    · exact hw r ((trimSpace_part w).subset hmem)
    · rfl

theorem fields_joinSpaces {hashes : List GoString} (h : ∀ h ∈ hashes, ∀ r ∈ h, fieldMark r = false)
    (t : CaseTable) :
    splitHashes t (joinSpaces hashes) = some ((hashes.map (stripped t)).filter (· ≠ [])) := by
  rw [splitHashes_eq]
  by_cases hnil : hashes = []
  · rw [hnil]
    rfl
  · rw [joinSpaces, splitOnP_intercalate (by decide) h hnil]

/-- Hashes that were joined with spaces are split as they were, each stripped once more. -/
theorem resplit_eq_self {t : CaseTable} {raw : GoString} {hashes : List GoString}
    (hsplit : splitHashes t raw = some hashes) :
    ∃ again, splitHashes t (joinSpaces hashes) = some again ∧
      (again = hashes ↔ ∀ h ∈ hashes, Bare (Rune.is isWhitespace) h ∧ ¬ HasURL t h) := by
  rw [splitHashes_eq] at hsplit
  have hfrom : ∀ h ∈ hashes, h ≠ [] ∧ ∃ w ∈ raw.splitOnP fieldMark, stripped t w = h := by
    intro h hh
    rw [← Option.some.inj hsplit] at hh
    obtain ⟨hmem, hne⟩ := List.mem_filter.mp hh
    exact ⟨of_decide_eq_true hne, List.mem_map.mp hmem⟩
  have hsingle : ∀ h ∈ hashes, ∀ r ∈ h, fieldMark r = false := by
    intro h hh
    obtain ⟨-, w, hw, rfl⟩ := hfrom h hh
    exact stripped_single (mem_splitOnP_clean hw)
  have hfixed : ∀ h ∈ hashes,
      (stripped t h = h ↔ Bare (Rune.is isWhitespace) h ∧ ¬ HasURL t h) := by
    intro h hh
    obtain ⟨-, w, -, rfl⟩ := hfrom h hh
    rw [← stripVkCallURL_again (stripVkCallURL_eq_stripped t w), stripVkCallURL_eq_stripped,
      Option.some_inj]
  refine ⟨_, fields_joinSpaces hsingle t, fun hagain h hh => ?_, fun hall => ?_⟩
  · exact (hfixed h hh).mp (map_filter_eq_self hagain h hh)
  · have hmap : hashes.map (stripped t) = hashes := by
      rw [List.map_congr_left fun h hh => (hfixed h hh).mpr (hall h hh), List.map_id']
    rw [hmap, List.filter_eq_self]
    exact fun h hh => decide_eq_true (hfrom h hh).1

/-! ### The round trip -/

theorem Values.get_set (q : Values) (key : String) (value : GoString) :
    (q.set key value).get key = value := by
  rw [Values.get, Values.set, Function.update_self]
  rfl

theorem Values.get_set_ne {q : Values} {key key' : String} (h : key' ≠ key) (value : GoString) :
    (q.set key value).get key' = q.get key' := by
  rw [Values.get, Values.set, Function.update_of_ne h, Values.get]

theorem Object.str_bare (m : Object) (k : String) : trimSpace (m.str k) = m.str k :=
  trimMatches_eq_self.mpr (trimMatches_bare _ _)

theorem splitHashes_str (t : CaseTable) (m : Object) :
    splitHashes t (m.str "hashes") = splitHashes t (m.text "hashes") := by
  rw [Object.str, splitHashes_trimSpace]

/-- A field that is empty may be left out. -/
theorem Values.get_set_if {q : Values} {key : String} {value : GoString} (hq : q.get key = []) :
    (if value = [] then q else q.set key value).get key = value := by
  split
  · rename_i hnil
    rw [hnil, hq]
  · exact Values.get_set q key value

theorem Values.get_set_if_ne {q : Values} {key key' : String} {value : GoString}
    (h : key' ≠ key) :
    (if value = [] then q else q.set key value).get key' = q.get key' := by
  split
  · rfl
  · exact Values.get_set_ne h value

theorem linkFields_get (m : Object) :
    (linkFields m).get "host" = m.str "host" ∧ (linkFields m).get "peer" = m.str "peer" ∧
      (linkFields m).get "password" = m.str "password" ∧ (linkFields m).get "hashes" = [] := by
  refine ⟨?_, ?_, Values.get_set _ _ _, ?_⟩
  · rw [linkFields, Values.get_set_ne (by decide), Values.get_set_if_ne (by decide)]
    exact Values.get_set_if (Values.get_set_ne (by decide) _)
  · rw [linkFields, Values.get_set_ne (by decide)]
    refine Values.get_set_if ?_
    rw [Values.get_set_if_ne (by decide), Values.get_set_ne (by decide)]
    rfl
  · rw [linkFields, Values.get_set_ne (by decide), Values.get_set_if_ne (by decide),
      Values.get_set_if_ne (by decide), Values.get_set_ne (by decide)]
    rfl

theorem linkFields_other {m : Object} {key : String} (hv : key ≠ "v") (hhost : key ≠ "host")
    (hpassword : key ≠ "password") (hpeer : key ≠ "peer" ∨ m.str "peer" = []) :
    linkFields m key = [] := by
  rw [linkFields, Values.set, Function.update_of_ne hpassword]
  rcases hpeer with hpeer | hpeer
  · split
    · split
      · rw [Values.set, Function.update_of_ne hv]
      · rw [Values.set, Function.update_of_ne hhost, Values.set, Function.update_of_ne hv]
    · rw [Values.set, Function.update_of_ne hpeer]
      split
      · rw [Values.set, Function.update_of_ne hv]
      · rw [Values.set, Function.update_of_ne hhost, Values.set, Function.update_of_ne hv]
  · rw [if_pos hpeer]
    split
    · rw [Values.set, Function.update_of_ne hv]
    · rw [Values.set, Function.update_of_ne hhost, Values.set, Function.update_of_ne hv]

/-- The query of an object has its fields, and no hashes where there are none. -/
theorem linkValues_get {t : CaseTable} {m : Object} {hashes : List GoString}
    (hsplit : splitHashes t (m.str "hashes") = some hashes) :
    ∃ q, linkValues t m = some q ∧ q.get "host" = m.str "host" ∧ q.get "peer" = m.str "peer" ∧
      q.get "password" = m.str "password" ∧ q.get "hashes" = joinSpaces hashes := by
  obtain ⟨hhost, hpeer, hpassword, hnone⟩ := linkFields_get m
  rw [linkValues]
  by_cases hnil : m.str "hashes" = []
  · have hempty : hashes = [] := by
      rw [hnil] at hsplit
      exact (Option.some.inj hsplit).symm
    exact ⟨linkFields m, by rw [if_pos hnil], hhost, hpeer, hpassword, by rw [hnone, hempty]; rfl⟩
  · refine ⟨_, by rw [if_neg hnil, hsplit, Option.map_some], ?_, ?_, ?_, Values.get_set _ _ _⟩
    · rw [Values.get_set_ne (by decide), hhost]
    · rw [Values.get_set_ne (by decide), hpeer]
    · rw [Values.get_set_ne (by decide), hpassword]

/-- The link of an accepted object is read back: its fields trimmed, its hashes as they are
when split once more. -/
theorem link_read {t : CaseTable} {net : NetURL} {m : Object} {q : Values}
    {hashes again : List GoString} (hpassword : m.str "password" ≠ [])
    (hserver : ¬ (m.str "host" = [] ∧ m.str "peer" = []))
    (hq : q.get "host" = m.str "host" ∧ q.get "peer" = m.str "peer" ∧
      q.get "password" = m.str "password" ∧ q.get "hashes" = joinSpaces hashes)
    (hagain : splitHashes t (joinSpaces hashes) = some again)
    (hnet : net.Inverse q (m.str "name")) :
    parseCsqttLink t net (makeLink net q (m.str "name")) =
      some (.ok ⟨m.str "host", m.str "peer", m.str "password", again, m.str "name"⟩) := by
  obtain ⟨hhost, hpeer, hpass, hhashes⟩ := hq
  obtain ⟨u, hparse, hscheme, huhost, huq, hfragment⟩ := hnet.parsed
  have htrim : trimSpace (makeLink net q (m.str "name")) = makeLink net q (m.str "name") :=
    trimMatches_eq_self.mpr hnet.bare
  have hne : makeLink net q (m.str "name") ≠ [] := by
    rw [makeLink, linkScheme, List.append_assoc]
    exact List.cons_ne_nil _ _
  have hconnect : toLower t (trimSpace (ofChars linkHostConnect)) = ofChars linkHostConnect := by
    have hbare : trimMatches isWhitespace linkHostConnect = linkHostConnect := by decide
    have hascii : ∀ c ∈ linkHostConnect, c.toNat < 128 := forall_mem_of_all (by decide)
    have hsmall : linkHostConnect.map Char.toLower = linkHostConnect := by decide
    rw [trimSpace_ofChars, hbare, toLower_ofChars,
      List.map_congr_left fun c hc => t.lower_ascii (hascii c hc), hsmall]
  have hfold : equalFold (ofChars linkScheme) linkScheme = true := by decide
  rw [parseCsqttLink, htrim]
  dsimp only
  rw [if_neg hne, hparse]
  dsimp only
  rw [hscheme, hfold, if_neg (by simp), huhost, hconnect, if_pos (.inl rfl), huq, parseConnect,
    hhashes, hagain, Option.map_some, hhost, hpeer, hpass, hfragment, Object.str_bare,
    Object.str_bare, Object.str_bare, Object.str_bare]
  dsimp only
  rw [if_neg hpassword, if_neg hserver]

theorem normalizeCsqtt_accepted {t : CaseTable} {net : NetURL}
    {unmarshal : GoString → Option Object} {raw link : GoString}
    (hlink : normalizeCsqtt t net unmarshal raw = some link) (hne : link ≠ []) :
    ∃ m q, unmarshal (trimSpace raw) = some m ∧ linkValues t m = some q ∧
      link = makeLink net q (m.str "name") ∧ m.str "password" ≠ [] ∧
      ¬ (m.str "host" = [] ∧ m.str "peer" = []) := by
  have hrefused : ¬ (some [] : Option GoString) = some link := fun h => hne (Option.some.inj h).symm
  rw [normalizeCsqtt] at hlink
  split at hlink
  · exact absurd hlink hrefused
  · split at hlink
    · exact absurd hlink hrefused
    · split at hlink
      · exact absurd hlink hrefused
      · rename_i m hm
        split at hlink
        · exact absurd hlink hrefused
        · rename_i hfields
          obtain ⟨q, hq, rfl⟩ := Option.map_eq_some_iff.mp hlink
          exact ⟨m, q, hm, hq, rfl, fun h => hfields (.inl h), fun h => hfields (.inr h)⟩

/-- The link of an accepted object gives back the object's trimmed fields and its hashes,
each stripped once more: the same ones exactly when each has no space at its ends and does
not begin with another call URL. -/
theorem link_round_trip {t : CaseTable} {net : NetURL} {unmarshal : GoString → Option Object}
    {raw link : GoString} (hlink : normalizeCsqtt t net unmarshal raw = some link)
    (hne : link ≠ [])
    (hnet : ∀ m q, unmarshal (trimSpace raw) = some m → linkValues t m = some q →
      net.Inverse q (m.str "name")) :
    ∃ m hashes l, unmarshal (trimSpace raw) = some m ∧
      splitHashes t (m.text "hashes") = some hashes ∧
      parseCsqttLink t net link = some (.ok l) ∧
      l.host = m.str "host" ∧ l.peer = m.str "peer" ∧ l.password = m.str "password" ∧
      l.name = m.str "name" ∧ splitHashes t (joinSpaces hashes) = some l.hashes ∧
      (l.hashes = hashes ↔ ∀ h ∈ hashes, Bare (Rune.is isWhitespace) h ∧ ¬ HasURL t h) := by
  obtain ⟨m, q, hm, hq, rfl, hpassword, hserver⟩ := normalizeCsqtt_accepted hlink hne
  have hsplit := splitHashes_eq t (m.str "hashes")
  obtain ⟨q', hq', hfields⟩ := linkValues_get hsplit
  obtain rfl : q' = q := Option.some.inj (hq'.symm.trans hq)
  obtain ⟨again, hagain, hiff⟩ := resplit_eq_self hsplit
  have hread := link_read hpassword hserver hfields hagain (hnet m q' hm hq)
  exact ⟨m, _, _, hm, (splitHashes_str t m).symm.trans hsplit, hread, rfl, rfl, rfl, rfl, hagain,
    hiff⟩

/-! ### A link by hand -/

def hexDigit (n : Nat) : Char := "0123456789ABCDEF".toList.getD n '0'

/-- `url.QueryEscape` of ASCII. -/
def queryEscape (s : GoString) : GoString :=
  s.flatMap fun
    | .byte _ => []
    | .char c =>
      if c.isAlphanum ∨ c ∈ ['-', '_', '.', '~'] then [.char c]
      else if c = ' ' then [.char '+']
      else ofChars ['%', hexDigit (c.toNat / 16), hexDigit (c.toNat % 16)]

def hexValue (c : Char) : Nat := "0123456789ABCDEF".toList.idxOf c

/-- `url.QueryUnescape` of ASCII. -/
def queryUnescape : GoString → GoString
  | .char '%' :: .char a :: .char b :: s =>
    .char (Char.ofNat (hexValue a * 16 + hexValue b)) :: queryUnescape s
  | .char '+' :: s => .char ' ' :: queryUnescape s
  | r :: s => r :: queryUnescape s
  | [] => []

/-- The keys of the link, sorted. -/
def linkKeys : List String := ["hashes", "host", "password", "peer", "v"]

/-- The pairs of a query. -/
def queryPairs (s : GoString) : List (List Char × GoString) :=
  (s.splitOnP (· = .char '&')).map fun field =>
    (wire (cut (· = .char '=') field),
      queryUnescape ((field.dropWhile (· ≠ .char '=')).drop 1))

/-- What stands in front of the query. -/
def linkFront : GoString := ofChars "csqtt://connect?".toList

/-- A link behind its front, read. -/
def asciiURL (rest : GoString) : URL where
  scheme := ofChars linkScheme
  user := none
  host := ofChars linkHostConnect
  path := []
  fragment := (rest.dropWhile (· ≠ .char '#')).drop 1
  query key := ((queryPairs (cut (· = .char '#') rest)).filter (·.1 = key.toList)).map (·.2)

/-- Enough of `net/url` for a link in ASCII whose name needs no escape. -/
def asciiNet : NetURL where
  encode q := [Rune.char '&'].intercalate (linkKeys.flatMap fun key =>
    (q key).map fun value => ofChars key.toList ++ .char '=' :: queryEscape value)
  pathEscape name := name
  parse s := if linkFront <+: s then .ok (asciiURL (s.drop linkFront.length)) else
    .error "unsupported"
  splitHostPort _ := none
  joinHostPort host port := host ++ .char ':' :: port
  quote s := String.ofList (wire s)

/-- A case table without letters beyond ASCII. -/
def asciiTable : CaseTable := ⟨fun _ => 'ÿ', fun _ => by decide⟩

/-- `encoding/json` on the object with these hashes. -/
def objectWith (hashes : String) : Object := fun k =>
  if k = "password" then some (.string (ofChars "p".toList))
  else if k = "host" then some (.string (ofChars "h ".toList))
  else if k = "hashes" then some (.string (ofChars hashes.toList))
  else if k = "name" then some (.string (ofChars "N".toList))
  else none

/-- The JSON text of an object with these hashes. -/
def objectText (hashes : String) : GoString :=
  ofChars ("\x7b\"password\":\"p\",\"host\":\"h \",\"hashes\":\"".toList ++ hashes.toList ++
    "\",\"name\":\"N\"\x7d".toList)

def unmarshalText (hashes : String) (s : GoString) : Option Object :=
  if s = objectText hashes then some (objectWith hashes) else none

/-- The link with the hashes `abc` and `x`. -/
def abcLink : GoString := ofChars "csqtt://connect?hashes=abc+x&host=h&password=p&v=2#N".toList

/-- The object and the query behind it. -/
abbrev abcObject : Object := objectWith "https://vk.com/call/join/abc x"

/-- What is made of the text and the object, and what is read of the link. -/
theorem abc_computed :
    (trimSpace (objectText "https://vk.com/call/join/abc x") =
        objectText "https://vk.com/call/join/abc x" ∧
      normalizeCsqtt asciiTable asciiNet (unmarshalText "https://vk.com/call/join/abc x")
        (objectText "https://vk.com/call/join/abc x") = some abcLink ∧ abcLink ≠ []) ∧
    (abcObject.str "hashes" ≠ [] ∧ abcObject.str "name" = ofChars "N".toList ∧
      splitHashes asciiTable (abcObject.str "hashes") =
        some [ofChars "abc".toList, ofChars "x".toList] ∧
      makeLink asciiNet ((linkFields abcObject).set "hashes" (ofChars "abc x".toList))
        (abcObject.str "name") = abcLink) ∧
    linkFront <+: abcLink ∧ Bare (Rune.is isWhitespace) abcLink ∧
      (asciiURL (abcLink.drop linkFront.length)).fragment = ofChars "N".toList ∧
      cut (· = .char '#') (abcLink.drop linkFront.length) =
        ofChars "hashes=abc+x&host=h&password=p&v=2".toList ∧
      queryPairs (ofChars "hashes=abc+x&host=h&password=p&v=2".toList) =
        [("hashes".toList, ofChars "abc x".toList), ("host".toList, ofChars "h".toList),
          ("password".toList, ofChars "p".toList), ("v".toList, ofChars "2".toList)] := by
  decide +kernel

theorem abc_values : linkValues asciiTable abcObject =
    some ((linkFields abcObject).set "hashes" (ofChars "abc x".toList)) := by
  obtain ⟨-, ⟨hne, -, hsplit, -⟩, -⟩ := abc_computed
  rw [linkValues, if_neg hne, hsplit]
  rfl

/-- The values under a key, of the query and of what is read of the link. -/
theorem abc_query (key : String) :
    (([("hashes".toList, ofChars "abc x".toList), ("host".toList, ofChars "h".toList),
      ("password".toList, ofChars "p".toList), ("v".toList, ofChars "2".toList)].filter
        (fun pair => decide (pair.1 = key.toList))).map (·.2)) =
      ((linkFields abcObject).set "hashes" (ofChars "abc x".toList)) key := by
  by_cases h₁ : key = "hashes"
  · subst h₁
    decide
  by_cases h₂ : key = "host"
  · subst h₂
    decide
  by_cases h₃ : key = "password"
  · subst h₃
    decide
  by_cases h₄ : key = "v"
  · subst h₄
    decide
  have hlink : ((linkFields abcObject).set "hashes" (ofChars "abc x".toList)) key = [] := by
    rw [Values.set, Function.update_of_ne h₁]
    exact linkFields_other h₄ h₂ h₃ (.inr (by decide))
  rw [hlink, List.map_eq_nil_iff, List.filter_eq_nil_iff]
  intro pair hpair heq
  have hkey : pair.1 = key.toList := of_decide_eq_true heq
  have hother : ∀ k : String, key ≠ k → pair.1 ≠ k.toList := fun k hk h =>
    hk (String.toList_inj.mp (hkey.symm.trans h))
  rcases List.mem_cons.mp hpair with rfl | hpair
  · exact hother _ h₁ rfl
  rcases List.mem_cons.mp hpair with rfl | hpair
  · exact hother _ h₂ rfl
  rcases List.mem_cons.mp hpair with rfl | hpair
  · exact hother _ h₃ rfl
  rcases List.mem_cons.mp hpair with rfl | hpair
  · exact hother _ h₄ rfl
  · cases hpair

theorem abcLink_inverse {m : Object} {q : Values}
    (hm : unmarshalText "https://vk.com/call/join/abc x"
      (trimSpace (objectText "https://vk.com/call/join/abc x")) = some m)
    (hq : linkValues asciiTable m = some q) : asciiNet.Inverse q (m.str "name") := by
  have hobject : unmarshalText "https://vk.com/call/join/abc x"
      (trimSpace (objectText "https://vk.com/call/join/abc x")) = some abcObject := by
    rw [unmarshalText, if_pos abc_computed.1.1]
  obtain rfl := Option.some.inj (hobject.symm.trans hm)
  obtain rfl := Option.some.inj (abc_values.symm.trans hq)
  obtain ⟨-, ⟨-, hname, -, hmade⟩, hstart, hbare, hfragment, hcut, hpairs⟩ := abc_computed
  refine ⟨by rw [hmade]; exact hbare, ?_⟩
  rw [hmade, hname]
  have hparse : asciiNet.parse abcLink = .ok (asciiURL (abcLink.drop linkFront.length)) := by
    simp only [asciiNet, hstart, if_true]
  refine ⟨_, hparse, rfl, rfl, ?_, hfragment⟩
  funext key
  rw [asciiURL, hcut, hpairs]
  exact abc_query key

theorem abcLink_read :
    ∃ m hashes l, unmarshalText "https://vk.com/call/join/abc x"
        (trimSpace (objectText "https://vk.com/call/join/abc x")) = some m ∧
      splitHashes asciiTable (m.text "hashes") = some hashes ∧
      parseCsqttLink asciiTable asciiNet abcLink = some (.ok l) ∧
      l.host = m.str "host" ∧ l.peer = m.str "peer" ∧ l.password = m.str "password" ∧
      l.name = m.str "name" ∧ splitHashes asciiTable (joinSpaces hashes) = some l.hashes ∧
      (l.hashes = hashes ↔ ∀ h ∈ hashes, Bare (Rune.is isWhitespace) h ∧ ¬ HasURL asciiTable h) :=
  @link_round_trip asciiTable asciiNet (unmarshalText "https://vk.com/call/join/abc x")
    (objectText "https://vk.com/call/join/abc x") abcLink abc_computed.1.2.1 abc_computed.1.2.2
    fun _ _ hm hq => abcLink_inverse hm hq

/-- A slash in front hides a link from the first pass, which the second then finds. -/
theorem link_not_round :
    ∃ link, normalizeCsqtt asciiTable asciiNet (unmarshalText "/vk.com/call/join/abc")
        (objectText "/vk.com/call/join/abc") = some link ∧
      splitHashes asciiTable (ofChars "/vk.com/call/join/abc".toList) =
        some [ofChars "vk.com/call/join/abc".toList] ∧
      parseCsqttLink asciiTable asciiNet link = some (.ok ⟨ofChars "h".toList, [],
        ofChars "p".toList, [ofChars "abc".toList], ofChars "N".toList⟩) := by
  refine ⟨ofChars
    "csqtt://connect?hashes=vk.com%2Fcall%2Fjoin%2Fabc&host=h&password=p&v=2#N".toList, ?_⟩
  decide +kernel

end Csqtt.Link
