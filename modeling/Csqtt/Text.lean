/-
The functions on text that the sources take from their standard libraries.

Characters are Unicode code points; `trim` is `str::trim` and `strings.TrimSpace`, whose
white space is the same.
-/
import Mathlib.Data.List.DropRight
import Mathlib.Data.List.Infix

namespace Csqtt.Text

/-- `char::is_whitespace`, `unicode.IsSpace`. -/
def isWhitespace (c : Char) : Bool :=
  (9 ≤ c.toNat && c.toNat ≤ 13) || (0x2000 ≤ c.toNat && c.toNat ≤ 0x200a) ||
    c.toNat ∈ [0x20, 0x85, 0xa0, 0x1680, 0x2028, 0x2029, 0x202f, 0x205f, 0x3000]

/-- `str::trim`, `strings.TrimSpace`. -/
def trim (text : String) : String :=
  String.ofList
    (((text.toList.dropWhile isWhitespace).reverse.dropWhile isWhitespace).reverse)

theorem trim_trim (text : String) : trim (trim text) = trim text := by
  have htrim : ∀ l : List Char, ((l.dropWhile isWhitespace).reverse.dropWhile isWhitespace).reverse =
      (l.dropWhile isWhitespace).rdropWhile isWhitespace := fun _ => rfl
  simp only [trim, String.toList_ofList, htrim]
  -- the text without its end starts as it did
  have hhead : ((text.toList.dropWhile isWhitespace).rdropWhile isWhitespace).dropWhile
      isWhitespace = (text.toList.dropWhile isWhitespace).rdropWhile isWhitespace := by
    refine List.dropWhile_eq_self_iff.mpr fun hpos => ?_
    have hbegins := List.rdropWhile_prefix isWhitespace (l := text.toList.dropWhile isWhitespace)
    rw [hbegins.getElem hpos]
    exact List.dropWhile_get_zero_not isWhitespace text.toList (hpos.trans_le hbegins.length_le)
  rw [hhead, List.rdropWhile_idempotent]

def contains (text needle : String) : Bool := decide (needle.toList <:+: text.toList)

theorem contains_iff {text needle : String} :
    contains text needle = true ↔ needle.toList <:+: text.toList := by
  rw [contains, decide_eq_true_eq]

theorem contains_append_left {a needle : String} (h : contains a needle = true) (b : String) :
    contains (a ++ b) needle = true := by
  rw [contains_iff, String.toList_append]
  exact (contains_iff.mp h).trans (List.prefix_append _ _).isInfix

theorem contains_append_right {b needle : String} (h : contains b needle = true) (a : String) :
    contains (a ++ b) needle = true := by
  rw [contains_iff, String.toList_append]
  exact (contains_iff.mp h).trans (List.suffix_append _ _).isInfix

/-- `to_ascii_lowercase`. -/
def toAsciiLowercase (text : String) : String := text.map Char.toLower

theorem toAsciiLowercase_append (a b : String) :
    toAsciiLowercase (a ++ b) = toAsciiLowercase a ++ toAsciiLowercase b := by
  apply String.toList_inj.mp
  simp [toAsciiLowercase, String.toList_map]

end Csqtt.Text
