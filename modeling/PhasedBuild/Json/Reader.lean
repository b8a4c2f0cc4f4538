import PhasedBuild.Datum
import PhasedBuild.Decimal.Reading
import PhasedBuild.Keyed

/-!
# Data read from JSON

* `Json.read?` is the datum that a text states, if it is JSON.

A reader takes the characters from where it stands and gives back what it read together with the
characters behind it. The number that bounds a reader is enough if it is greater than twice the
number of the characters that are left.
-/

namespace PhasedBuild.Json

/-- The characters behind blanks and line breaks. -/
def skipBlanks (cs : List Char) : List Char :=
  cs.dropWhile fun c => c = ' ' || c = '\t' || c = '\n' || c = '\r'

/-! ### Strings -/

/-- A unit of sixteen bits that is written by the next four hexadecimal digits. -/
def unit? (cs : List Char) : Option (Nat × List Char) :=
  if cs.length < 4 then none
  else (Decimal.natIn? 16 (cs.take 4)).map fun n => (n, cs.drop 4)

/-- The character that is written by one unit, or by two of which the second has an escape of its
own. -/
def coded? (cs : List Char) : Option (Char × List Char) := do
  let (high, rest) ← unit? cs
  if high < 0xD800 || 0xE000 ≤ high then return (Char.ofNat high, rest)
  match rest with
  | '\x5c' :: 'u' :: rest =>
    let (low, rest) ← unit? rest
    if high < 0xDC00 && 0xDC00 ≤ low && low < 0xE000 then
      return (Char.ofNat (0x10000 + (high - 0xD800) * 0x400 + (low - 0xDC00)), rest)
    else none
  | _ => none

/-- The character that is written by what follows a backslash. -/
def escape? : List Char → Option (Char × List Char)
  | [] => none
  | c :: cs =>
    if c = 'n' then some ('\n', cs)
    else if c = 't' then some ('\t', cs)
    else if c = 'r' then some ('\r', cs)
    else if c = 'b' then some ('\x08', cs)
    else if c = 'f' then some ('\x0c', cs)
    else if c = '\x22' || c = '\x5c' || c = '/' then some (c, cs)
    else if c = 'u' then coded? cs
    else none

/-- The rest of a string. -/
def stringRest? : Nat → List Char → Option (List Char × List Char)
  | 0, _ => none
  | _, [] => none
  | n + 1, c :: cs =>
    if c = '\x22' then some ([], cs)
    else if c = '\x5c' then
      match escape? cs with
      | some (c, cs) => (stringRest? n cs).map fun (read, rest) => (c :: read, rest)
      | none => none
    else if c.toNat < 0x20 then none
    else (stringRest? n cs).map fun (read, rest) => (c :: read, rest)

/-! ### Numbers -/

/-- Whether a character can stand in a number. -/
def isNumberChar (c : Char) : Bool :=
  c.isDigit || c = '+' || c = '-' || c = '.' || c = 'e' || c = 'E'

/-- Whether the digits before the point of a number are well formed: zeros do not lead. -/
def isWhole : List Char → Bool
  | [] => false
  | '0' :: _ :: _ => false
  | cs => cs.all Char.isDigit

/-- A number with more digits behind it, as long as it fits into 64 bits, and how many of them did
not fit. -/
def withDigits (n : Nat) : List Char → Nat × Nat
  | [] => (n, 0)
  | c :: cs =>
    let next := 10 * n + (c.toNat - '0'.toNat)
    if Datum.fitsCount next then withDigits next cs else (n, cs.length + 1)

/-- A number times a power of ten, rounded after each step; numbers that are too great are
refused. -/
def scaled? (x : Float) (exponent : Int) : Option Float :=
  let power (n : Nat) : Float := Float.ofScientific 1 false n
  if exponent < -616 then some 0.0
  else if exponent < -308 then some (x / power 308 / power (exponent + 308).natAbs)
  else if exponent < 0 then some (x / power exponent.natAbs)
  else if 308 < exponent then if x == 0.0 then some x else none
  else
    let product := x * power exponent.natAbs
    if product.isInf then none else some product

/-- The number behind the mark of an exponent. -/
def exponent? : List Char → Option Int
  | [] => some 0
  | _ :: digits => Decimal.int? digits

/-- A number with a fraction or an exponent. It is taken as its leading digits times a power of
ten. -/
def fractional? (text : List Char) : Option Datum :=
  let negative := text.head? = some '-'
  let magnitude := if negative then text.tail else text
  let whole := magnitude.takeWhile Char.isDigit
  let rest := magnitude.dropWhile Char.isDigit
  let (fraction, mark) := match rest with
    | '.' :: cs => (cs.takeWhile Char.isDigit, cs.dropWhile Char.isDigit)
    | _ => ([], rest)
  let isMarked := mark.isEmpty || mark.head? = some 'e' || mark.head? = some 'E'
  if !isWhole whole || !isMarked || (rest.head? = some '.' && fraction.isEmpty) then none
  else
    let (digits, left) := withDigits 0 whole
    let (digits, unused) := withDigits digits fraction
    let places := (left : Int) - (fraction.length - unused)
    let value := (exponent? mark).bind fun e => scaled? (Float.ofNat digits) (places + e)
    value.map fun x => .float (if negative then -x else x)

/-- A number. Integers that do not fit into 64 bits are read as fractional numbers. -/
def number? (text : List Char) : Option Datum :=
  let magnitude := if text.head? = some '-' then text.tail else text
  if isWhole magnitude && text != ['-', '0'] then
    match Decimal.int? text with
    | some i => if Datum.fitsInt64 i || Datum.fitsCount i then some (.int i) else fractional? text
    | none => none
  else fractional? text

/-! ### Values -/

mutual

/-- A value. At most `depth` lists and tables lie inside each other. -/
def value? (n depth : Nat) (cs : List Char) : Option (Datum × List Char) :=
  match n with
  | 0 => none
  | n + 1 =>
    match skipBlanks cs with
    | '\x22' :: cs => (stringRest? n cs).map fun (s, cs) => (.text (String.ofList s), cs)
    | '[' :: cs =>
      if depth = 0 then none
      else match skipBlanks cs with
        | ']' :: cs => some (.list [], cs)
        | cs => (items? n (depth - 1) cs).map fun (items, cs) => (.list items, cs)
    | '\x7b' :: cs =>
      if depth = 0 then none
      else match skipBlanks cs with
        | '\x7d' :: cs => some (.table [], cs)
        | cs => (fields? n (depth - 1) [] cs).map fun (fields, cs) => (.table fields, cs)
    | 't' :: 'r' :: 'u' :: 'e' :: cs => some (.bool true, cs)
    | 'f' :: 'a' :: 'l' :: 's' :: 'e' :: cs => some (.bool false, cs)
    | 'n' :: 'u' :: 'l' :: 'l' :: cs => some (.null, cs)
    | cs => (number? (cs.takeWhile isNumberChar)).map (·, cs.dropWhile isNumberChar)

/-- The items of a list, up to the bracket that closes it. -/
def items? (n depth : Nat) (cs : List Char) : Option (List Datum × List Char) :=
  match n with
  | 0 => none
  | n + 1 =>
    match value? n depth cs with
    | none => none
    | some (item, cs) =>
      match skipBlanks cs with
      | ',' :: cs => (items? n depth cs).map fun (items, cs) => (item :: items, cs)
      | ']' :: cs => some ([item], cs)
      | _ => none

/-- The fields of a table, up to the brace that closes it. A name that comes again replaces the
value that it had. -/
def fields? (n depth : Nat) (read : List (String × Datum)) (cs : List Char) :
    Option (List (String × Datum) × List Char) :=
  match n with
  | 0 => none
  | n + 1 =>
    match skipBlanks cs with
    | '\x22' :: cs =>
      match stringRest? n cs with
      | none => none
      | some (name, cs) =>
        match skipBlanks cs with
        | ':' :: cs =>
          match value? n depth cs with
          | none => none
          | some (value, cs) =>
            let read := Keyed.insert (String.ofList name) value read
            match skipBlanks cs with
            | ',' :: cs => fields? n depth read cs
            | '\x7d' :: cs => some (read, cs)
            | _ => none
        | _ => none
    | _ => none

end

/-- How deep lists and tables may lie inside each other. -/
def maxNesting : Nat := 127

/-- The datum that a text states. -/
def read? (s : String) : Option Datum :=
  let cs := s.toList
  match value? (2 * cs.length + 2) maxNesting cs with
  | some (d, rest) => if (skipBlanks rest).isEmpty then some d else none
  | none => none

end PhasedBuild.Json
