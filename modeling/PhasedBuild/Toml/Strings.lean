import PhasedBuild.Decimal.Reading

/-!
# Strings and keys of TOML

* `Toml.quoted?` reads a string in any of its four kinds.
* `Toml.keyPath?` reads a key, which may consist of several parts with dots between them.

A reader takes the characters from where it stands and gives back what it read together with the
characters behind it. The number that bounds a reader counts characters: it is enough that it is not
less than the number of those that are left.
-/

namespace PhasedBuild.Toml

/-- Whether a character can stand in a string or a comment as it is. -/
def isTextChar (c : Char) : Bool :=
  c = '\t' || (0x20 ≤ c.toNat && c.toNat != 0x7F)

/-- Whether a character separates words of a line. -/
def isSpace (c : Char) : Bool :=
  c = ' ' || c = '\t'

/-- The characters behind the blanks of a line. -/
def skipSpaces (cs : List Char) : List Char :=
  cs.dropWhile isSpace

/-- The characters behind a line break, if one comes next. -/
def afterBreak? : List Char → Option (List Char)
  | '\n' :: cs => some cs
  | '\r' :: '\n' :: cs => some cs
  | _ => none

/-! ### Escapes -/

/-- The character whose number is written by the next `n` hexadecimal digits. -/
def coded? (n : Nat) (cs : List Char) : Option (Char × List Char) :=
  if cs.length < n then none
  else match Decimal.natIn? 16 (cs.take n) with
    | some code => if code.isValidChar then some (Char.ofNat code, cs.drop n) else none
    | none => none

/-- The character that is written by what follows a backslash. -/
def escape? : List Char → Option (Char × List Char)
  | [] => none
  | c :: cs =>
    if c = 'b' then some ('\x08', cs)
    else if c = 't' then some ('\t', cs)
    else if c = 'n' then some ('\n', cs)
    else if c = 'f' then some ('\x0c', cs)
    else if c = 'r' then some ('\r', cs)
    else if c = 'e' then some ('\x1b', cs)
    else if c = '\x22' then some ('\x22', cs)
    else if c = '\x5c' then some ('\x5c', cs)
    else if c = 'x' then coded? 2 cs
    else if c = 'u' then coded? 4 cs
    else if c = 'U' then coded? 8 cs
    else none

/-! ### Strings on one line -/

/-- What has been read with a character in front of it. -/
def push (c : Char) (read : List Char × List Char) : List Char × List Char :=
  (c :: read.1, read.2)

/-- The rest of a string between double quotes. -/
def basic? : Nat → List Char → Option (List Char × List Char)
  | 0, _ => none
  | _, [] => none
  | n + 1, c :: cs =>
    if c = '\x22' then some ([], cs)
    else if c = '\x5c' then
      match escape? cs with
      | some (c, cs) => (basic? n cs).map (push c)
      | none => none
    else if isTextChar c then (basic? n cs).map (push c)
    else none

/-- The rest of a string between single quotes. -/
def literal? : List Char → Option (List Char × List Char)
  | [] => none
  | c :: cs =>
    if c = '\x27' then some ([], cs)
    else if isTextChar c then (literal? cs).map (push c)
    else none

/-! ### Strings over several lines -/

/-- The characters behind all blanks and line breaks. -/
def skipLines : List Char → List Char
  | ' ' :: cs => skipLines cs
  | '\t' :: cs => skipLines cs
  | '\n' :: cs => skipLines cs
  | '\r' :: '\n' :: cs => skipLines cs
  | cs => cs

/-- The rest of a string over several lines. `quote` closes it when it stands there three times; up
to two more belong to the string. Backslashes are escapes if `escapes` is set. -/
def multiline? (quote : Char) (escapes : Bool) : Nat → List Char → Option (List Char × List Char)
  | 0, _ => none
  | _, [] => none
  | n + 1, c :: cs =>
    if c = quote then
      let run := ((c :: cs).takeWhile (· == quote)).length
      if run < 3 then (multiline? quote escapes n cs).map (push c)
      else some (List.replicate (min run 5 - 3) quote, (c :: cs).drop (min run 5))
    else if escapes && c = '\x5c' then
      if (afterBreak? (skipSpaces cs)).isSome then multiline? quote escapes n (skipLines cs)
      else match escape? cs with
        | some (c, cs) => (multiline? quote escapes n cs).map (push c)
        | none => none
    else if isTextChar c || c = '\n' || (c = '\r' && (afterBreak? (c :: cs)).isSome) then
      (multiline? quote escapes n cs).map (push c)
    else none

/-- The characters behind a line break if one comes next, else all of them. -/
def skipBreak (cs : List Char) : List Char :=
  (afterBreak? cs).getD cs

/-- A string of any kind. -/
def quoted? (cs : List Char) : Option (List Char × List Char) :=
  match cs with
  | '\x22' :: '\x22' :: '\x22' :: rest => multiline? '\x22' true cs.length (skipBreak rest)
  | '\x27' :: '\x27' :: '\x27' :: rest => multiline? '\x27' false cs.length (skipBreak rest)
  | '\x22' :: rest => basic? cs.length rest
  | '\x27' :: rest => literal? rest
  | _ => none

/-! ### Keys -/

/-- Whether a character can stand in a key without quotes. -/
def isKeyChar (c : Char) : Bool :=
  c.isAlphanum || c = '_' || c = '-'

/-- One part of a key. -/
def keyPart? (cs : List Char) : Option (String × List Char) :=
  match cs with
  | '\x22' :: rest => (basic? cs.length rest).map fun (part, rest) => (String.ofList part, rest)
  | '\x27' :: rest => (literal? rest).map fun (part, rest) => (String.ofList part, rest)
  | _ =>
    match cs.takeWhile isKeyChar with
    | [] => none
    | part => some (String.ofList part, cs.dropWhile isKeyChar)

/-- How deep lists and tables may lie inside each other, and how many parts a key may have. -/
def maxNesting : Nat := 80

/-- The parts of a key, of which there are at most `n`. Blanks may stand around the dots and behind
the key. -/
def keyParts? : Nat → List Char → Option (List String × List Char)
  | 0, _ => none
  | n + 1, cs =>
    match keyPart? (skipSpaces cs) with
    | none => none
    | some (part, rest) =>
      match skipSpaces rest with
      | '.' :: rest => (keyParts? n rest).map fun (parts, rest) => (part :: parts, rest)
      | rest => some ([part], rest)

/-- A key of one or more parts. -/
def keyPath? (cs : List Char) : Option (List String × List Char) :=
  keyParts? maxNesting cs

end PhasedBuild.Toml
