import PhasedBuild.Decimal.Reading
import PhasedBuild.Pattern.Mode

/-!
# Escapes of a pattern

* `Pattern.escape?` reads what follows a backslash.
* `Pattern.Escape.isAllowed` says which escapes a mode allows outside of a set of characters.

Classes of characters are known for ASCII only, so a mode for characters of all scripts has none.
-/

namespace PhasedBuild.Pattern

/-- What a backslash begins. -/
inductive Escape where
  /-- A character; `isByte` tells whether it is given by two hexadecimal digits. -/
  | char (c : Char) (isByte : Bool)
  /-- The digits, blanks or word characters, or all others. -/
  | characters (negated : Bool)
  /-- The start or the end of the text. -/
  | textEdge
  /-- The start or the end of a word, or no such place. -/
  | wordEdge
deriving Repr, Inhabited, DecidableEq

/-- The character whose number is written by the next `n` hexadecimal digits; `code` is the number
that the digits before them write. -/
def coded? (m : Mode) (code : Nat) : Nat → List Char → Option (Char × List Char)
  | 0, cs => if code.isValidChar then some (Char.ofNat code, cs) else none
  | n + 1, cs =>
    match m.skip cs with
    | [] => none
    | c :: cs => (Decimal.digit? 16 c).bind fun digit => coded? m (16 * code + digit) n cs

/-- Whether a character may stand behind a backslash without a meaning of its own. -/
def isPlain (c : Char) : Bool :=
  c.toNat < 0x80 && !c.isAlphanum && c != '<' && c != '>'

/-- Reads what follows a backslash. -/
def escape? (m : Mode) : List Char → Option (Escape × List Char)
  | [] => none
  | c :: cs =>
    let coded (n : Nat) : Option (Escape × List Char) :=
      (coded? m 0 n cs).map fun (read, cs) => (.char read (c = 'x'), cs)
    if c = 'x' then coded 2
    else if c = 'u' then coded 4
    else if c = 'U' then coded 8
    else if ['d', 's', 'w'].contains c then some (.characters false, cs)
    else if ['D', 'S', 'W'].contains c then some (.characters true, cs)
    else if isPlain c then some (.char c false, cs)
    else if c = 'a' then some (.char '\x07' false, cs)
    else if c = 'f' then some (.char '\x0c' false, cs)
    else if c = 't' then some (.char '\t' false, cs)
    else if c = 'n' then some (.char '\n' false, cs)
    else if c = 'r' then some (.char '\r' false, cs)
    else if c = 'v' then some (.char '\x0b' false, cs)
    else if c = 'A' || c = 'z' then some (.textEdge, cs)
    else if ['b', 'B', '<', '>'].contains c then some (.wordEdge, cs)
    else none

/-- Whether a mode allows a single character. Bytes beyond ASCII are no characters, and the other
case of a letter is known in bytes only. -/
def Mode.allowsChar (m : Mode) (c : Char) (isByte : Bool) : Bool :=
  if m.unicode then !m.ignoreCase else !(isByte && 0x80 ≤ c.toNat)

/-- Whether a mode allows an escape. -/
def Escape.isAllowed (m : Mode) : Escape → Bool
  | .char c isByte => m.allowsChar c isByte
  | .characters negated => !m.unicode && !negated
  | .textEdge => true
  | .wordEdge => !m.unicode

end PhasedBuild.Pattern
