import PhasedBuild.Datum
import PhasedBuild.Toml.Moment

/-!
# Numbers and words of TOML

* `Toml.scalar?` reads a value that is written without quotes or brackets.
-/

namespace PhasedBuild.Toml

/-- Digits without the underscores between them. -/
def joinDigits? (isDigit : Char → Bool) : List Char → Option (List Char)
  | [] => none
  | [c] => if isDigit c then some [c] else none
  | c :: '_' :: d :: cs =>
    if isDigit c && isDigit d then (joinDigits? isDigit (d :: cs)).map (c :: ·) else none
  | c :: d :: cs =>
    if isDigit c then (joinDigits? isDigit (d :: cs)).map (c :: ·) else none

/-- A decimal integer without a sign; zeros do not lead. -/
def wholePart? (cs : List Char) : Option (List Char) :=
  match joinDigits? Char.isDigit cs with
  | some ('0' :: _ :: _) => none
  | digits => digits

/-- Whether an integer fits into 128 bits, with a sign or without. -/
def isKnownInt (i : Int) : Bool :=
  -0x80000000000000000000000000000000 ≤ i && i < 0x100000000000000000000000000000000

/-- An integer in a base that is not ten. -/
def based? (base : Nat) (cs : List Char) : Option Int :=
  let digits? := joinDigits? (fun c => (Decimal.digit? base c).isSome) cs
  (digits?.bind (Decimal.natIn? base)).map Int.ofNat

/-- An integer. -/
def integer? (cs : List Char) : Option Datum :=
  let value := match cs with
    | '0' :: 'x' :: digits => based? 16 digits
    | '0' :: 'o' :: digits => based? 8 digits
    | '0' :: 'b' :: digits => based? 2 digits
    | _ =>
      let (negative, digits) := Decimal.splitSign cs
      ((wholePart? digits).bind Decimal.nat?).map fun n => if negative then -(n : Int) else n
  value.map fun i => if isKnownInt i then .int i else .oversized

/-- The exponent of a number, if there is one. -/
def exponent? : List Char → Option Int
  | [] => some 0
  | _ :: cs =>
    let (negative, digits) := Decimal.splitSign cs
    ((joinDigits? Char.isDigit digits).bind Decimal.nat?).map fun n =>
      if negative then -(n : Int) else n

/-- A number with a fraction or an exponent. -/
def fractional? (cs : List Char) : Option Decimal.Reading :=
  let (negative, cs) := Decimal.splitSign cs
  let isExponentMark (c : Char) : Bool := c == 'e' || c == 'E'
  let significand := cs.takeWhile (!isExponentMark ·)
  let mark := cs.dropWhile (!isExponentMark ·)
  let fraction? := match significand.dropWhile (· != '.') with
    | [] => if mark.isEmpty then none else some []
    | _ :: digits => joinDigits? Char.isDigit digits
  match wholePart? (significand.takeWhile (· != '.')), fraction?, exponent? mark with
  | some whole, some fraction, some exponent =>
    (Decimal.nat? (whole ++ fraction)).map fun digits =>
      .finite negative digits (exponent - fraction.length)
  | _, _, _ => none

/-- A number that is not an integer. -/
def float? (cs : List Char) : Option Datum :=
  let (negative, word) := Decimal.splitSign cs
  if word = "inf".toList then some (.float (Decimal.Reading.infinite negative).toFloat)
  else if word = "nan".toList then some (.float Decimal.Reading.notANumber.toFloat)
  else
    let value := (fractional? cs).map Decimal.Reading.toFloat
    value.map fun x => if x.isInf then .oversized else .float x

/-- A value that is written without quotes or brackets. -/
def scalar? (cs : List Char) : Option Datum :=
  if cs = "true".toList then some (.bool true)
  else if cs = "false".toList then some (.bool false)
  else
    (integer? cs).or ((float? cs).or ((moment? cs).map .moment))

end PhasedBuild.Toml
