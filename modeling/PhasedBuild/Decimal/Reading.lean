import PhasedBuild.Text.Characters

/-!
# Reading decimal numbers

* `Decimal.nat?` reads a run of ASCII digits.
* `Decimal.Reading.parse?` reads a decimal with an optional sign, point and exponent, or one of the
  words for infinity and not-a-number.
* `Decimal.Reading.toFloat` rounds what was read to the nearest binary number.
-/

namespace PhasedBuild.Decimal

/-- The value of a character as a digit in base `base`. -/
def digit? (base : Nat) (c : Char) : Option Nat :=
  let value :=
    if '0' ≤ c && c ≤ '9' then some (c.toNat - '0'.toNat)
    else if 'a' ≤ c && c ≤ 'z' then some (c.toNat - 'a'.toNat + 10)
    else if 'A' ≤ c && c ≤ 'Z' then some (c.toNat - 'A'.toNat + 10)
    else none
  value.filter (· < base)

/-- The number written by digits in base `base`; there must be at least one. -/
def natIn? (base : Nat) : List Char → Option Nat
  | [] => none
  | cs => cs.foldlM (fun n c => (digit? base c).map (base * n + ·)) 0

/-- The number written by ASCII decimal digits; there must be at least one. -/
def nat? (cs : List Char) : Option Nat :=
  natIn? 10 cs

/-- What the text of a decimal number says. -/
inductive Reading where
  | notANumber
  | infinite (negative : Bool)
  /-- The number `digits * 10 ^ exponent`, or its opposite. -/
  | finite (negative : Bool) (digits : Nat) (exponent : Int)
deriving Repr, DecidableEq

/-- A leading sign and what follows it. -/
def splitSign : List Char → Bool × List Char
  | '-' :: cs => (true, cs)
  | '+' :: cs => (false, cs)
  | cs => (false, cs)

/-- An integer with an optional sign. -/
def int? (cs : List Char) : Option Int :=
  let (negative, digits) := splitSign cs
  (nat? digits).map fun n => if negative then -(n : Int) else n

/-- The decimal that follows the sign: digits on at least one side of the point. -/
def magnitude? (negative : Bool) (cs : List Char) : Option Reading :=
  let significand := cs.takeWhile fun c => c != 'e' && c != 'E'
  let whole := significand.takeWhile (· != '.')
  let fraction := (significand.dropWhile (· != '.')).drop 1
  let exponent? := match cs.dropWhile fun c => c != 'e' && c != 'E' with
    | [] => some 0
    | _ :: digits => int? digits
  match nat? (whole ++ fraction), exponent? with
  | some n, some e => some (.finite negative n (e - fraction.length))
  | _, _ => none

/-- The meaning of the text of a decimal number, if it is one. -/
def Reading.parse? (s : String) : Option Reading :=
  let (negative, cs) := splitSign s.toList
  let word := String.ofList cs
  if Text.sameLetters word "inf" || Text.sameLetters word "infinity" then some (.infinite negative)
  else if Text.sameLetters word "nan" then some .notANumber
  else magnitude? negative cs

/-- The nearest binary number. Magnitudes far outside the range of the format are settled by the
number of their digits. -/
def Reading.toFloat : Reading → Float
  | .notANumber => 0.0 / 0.0
  | .infinite negative => if negative then -(1.0 / 0.0) else 1.0 / 0.0
  | .finite negative digits exponent =>
    let order := (toString digits).length + exponent
    let magnitude :=
      if digits = 0 || order < -400 then 0.0
      else if 400 < order then 1.0 / 0.0
      else if 0 ≤ exponent then Float.ofScientific digits false exponent.toNat
      else Float.ofScientific digits true (-exponent).toNat
    if negative then -magnitude else magnitude

end PhasedBuild.Decimal
