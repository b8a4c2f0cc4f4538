import PhasedBuild.Text.Characters

/-!
# Modes of a pattern

Flags such as `(?i)` or `(?x-u:..)` change how the text behind them is read, up to the end of the
group in which they stand.

* `Pattern.Mode.flags?` reads flags.
* `Pattern.Mode.skip` passes over what a mode takes for blank.
-/

namespace PhasedBuild.Pattern

/-- How a pattern is read. -/
structure Mode where
  /-- Letters stand for both their cases. -/
  ignoreCase : Bool := false
  /-- Characters of all scripts are matched, and not the bytes of a text. -/
  unicode : Bool := true
  /-- Blanks and comments do not count. -/
  spaced : Bool := false
deriving Repr, Inhabited, DecidableEq

namespace Mode

/-- The mode after a flag has been set or taken back. -/
def withFlag (m : Mode) (flag : Char) (value : Bool) : Mode :=
  if flag = 'i' then { m with ignoreCase := value }
  else if flag = 'u' then { m with unicode := value }
  else if flag = 'x' then { m with spaced := value }
  else m

/-- Whether a character is a flag. -/
def isFlag (c : Char) : Bool :=
  ['i', 'm', 's', 'U', 'u', 'R', 'x'].contains c

/-- Reads flags up to the colon or bracket behind them. `seen` are those before; each may stand
there once. Behind a minus sign, which may stand there once too, flags are taken back. -/
def flags? (m : Mode) (seen : List Char) : List Char → Option (Mode × List Char × List Char)
  | [] => none
  | c :: cs =>
    if c = ':' || c = ')' then
      if seen.head? = some '-' then none else some (m, seen, c :: cs)
    else if seen.contains c || !(isFlag c || c = '-') then none
    else (m.withFlag c (!seen.contains '-')).flags? (c :: seen) cs

mutual

/-- The characters behind blanks and comments. -/
def skipBlanks : List Char → List Char
  | [] => []
  | c :: cs =>
    if Text.isBlank c then skipBlanks cs else if c = '#' then skipComment cs else c :: cs

/-- The characters behind a comment and what is blank behind it. -/
def skipComment : List Char → List Char
  | [] => []
  | c :: cs => if c = '\n' then skipBlanks cs else skipComment cs

end

/-- The characters behind what does not count in a mode. -/
def skip (m : Mode) (cs : List Char) : List Char :=
  if m.spaced then skipBlanks cs else cs

end Mode

end PhasedBuild.Pattern
