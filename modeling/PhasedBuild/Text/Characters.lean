/-!
# Characters

* `Text.isWithin` tells whether a character lies in a set that is given by the ranges of its
  numbers.
* `Text.isBlank` is the Unicode property White_Space, which every reader of the library uses, and
  `Text.trim` cuts a text down to the span from its first to its last character that is not blank.
* `Text.spells` and `Text.sameLetters` compare texts whatever their case. Lower-casing is that of
  Unicode; its only results within ASCII come from the letters `A` to `Z` and from the Kelvin sign.
-/

namespace PhasedBuild.Text

/-! ### Sets of characters -/

/-- Whether a character lies in one of several ranges. -/
def isWithin (ranges : List (Nat × Nat)) (c : Char) : Bool :=
  ranges.any fun (first, last) => first ≤ c.toNat && c.toNat ≤ last

/-! ### Blanks -/

/-- Whether a character has the Unicode property White_Space: twenty-five characters in ten
ranges. -/
def isBlank (c : Char) : Bool :=
  let n := c.toNat
  (0x09 ≤ n && n ≤ 0x0D) || n == 0x20 || n == 0x85 || n == 0xA0 || n == 0x1680 ||
    (0x2000 ≤ n && n ≤ 0x200A) || n == 0x2028 || n == 0x2029 || n == 0x202F || n == 0x205F ||
    n == 0x3000

/-- The characters of a text without the blanks at its two ends. -/
def trimChars (cs : List Char) : List Char :=
  ((cs.dropWhile isBlank).reverse.dropWhile isBlank).reverse

/-- A text without the blanks at its two ends. -/
def trim (s : String) : String :=
  String.ofList (trimChars s.toList)

@[simp] theorem toList_trim (s : String) : (trim s).toList = trimChars s.toList := by
  simp [trim]

/-! ### Words written in any case -/

/-- The lower-case form of a character as far as it can end up in ASCII. -/
def lowerChar (c : Char) : Char :=
  if c.toNat = 0x212A then 'k' else c.toLower

/-- Whether a text spells the lower-case ASCII word `word` when its own case is disregarded. -/
def spells (word s : String) : Bool :=
  s.toList.map lowerChar == word.toList

/-- Whether two ASCII letters sequences are equal up to the case of `A` to `Z`. -/
def sameLetters (a b : String) : Bool :=
  a.toList.map Char.toLower == b.toList.map Char.toLower

end PhasedBuild.Text
