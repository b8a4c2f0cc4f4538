/-!
# The shortest decimal form of a binary floating-point number

A finite number `m * 2 ^ q` stands for all reals that round to it. Its shortest form is the decimal
with the fewest digits among those reals and, of two with equally many, the nearer one, or the
greater one if both are equally near. It is found on the grids `10 ^ k`, from the coarsest down: if
a grid has a point in the interval, then one of the value's two neighbours on that grid is such a
point.
-/

namespace PhasedBuild.Decimal

/-- The magnitude `mantissa * 2 ^ exponent` of a finite binary number. -/
structure Binary where
  mantissa : Nat
  exponent : Int
  /-- Whether the number is the least of its binade, so that its lower neighbour is closer. -/
  closeBelow : Bool
deriving Repr, DecidableEq

/-- A decimal `digits * 10 ^ exponent`. -/
structure Form where
  digits : Nat
  exponent : Int
deriving Repr, DecidableEq

/-- The magnitude held by the 63 lower bits of a finite number in the 64-bit format. -/
def Binary.ofBits (bits : UInt64) : Binary :=
  let fraction := (bits &&& 0xFFFFFFFFFFFFF).toNat
  let biased := ((bits >>> 52) &&& 0x7FF).toNat
  if biased = 0 then ⟨fraction, -1074, false⟩
  else ⟨0x10000000000000 + fraction, (biased : Int) - 1075, fraction = 0 && 1 < biased⟩

/-- The point of the grid `10 ^ k` that rounds to `b`, the nearer one if there are two and the
greater one if both are equally near. All lengths are counted in the unit `2 ^ (b.exponent - 2)` and
multiplied by the denominators. -/
def Binary.onGrid? (b : Binary) (k : Int) : Option Form :=
  let unit := b.exponent - 2
  let scale := Nat.pow 2 unit.toNat * Nat.pow 10 (-k).toNat
  let cell := Nat.pow 2 (-unit).toNat * Nat.pow 10 k.toNat
  let value := 4 * b.mantissa * scale
  let lowest := (4 * b.mantissa - (if b.closeBelow then 1 else 2)) * scale
  let highest := (4 * b.mantissa + 2) * scale
  let inside (point : Nat) : Bool :=
    if b.mantissa % 2 = 0 then lowest ≤ point && point ≤ highest
    else lowest < point && point < highest
  let below := value / cell
  let above := below + 1
  let belowFits := 0 < below && inside (below * cell)
  let aboveFits := inside (above * cell)
  if belowFits && aboveFits then
    some ⟨if value - below * cell < above * cell - value then below else above, k⟩
  else if belowFits then some ⟨below, k⟩
  else if aboveFits then some ⟨above, k⟩
  else none

/-- The grids that can hold the shortest form of a 64-bit number, coarsest first. -/
def grids : List Int :=
  (List.range 654).map fun (i : Nat) => 309 - Int.ofNat i

/-- The shortest decimal that rounds to `b`. -/
def Binary.shortest (b : Binary) : Form :=
  if b.mantissa = 0 then ⟨0, 0⟩ else (grids.findSome? b.onGrid?).getD ⟨0, 0⟩

/-- A decimal written without an exponent: zeros fill the places that its digits do not reach. -/
def Form.positional (f : Form) : String :=
  let digits := toString f.digits
  if 0 ≤ f.exponent then digits ++ String.ofList (List.replicate f.exponent.toNat '0')
  else
    let places := (-f.exponent).toNat
    let padded := List.replicate (places + 1 - digits.length) '0' ++ digits.toList
    let whole := padded.length - places
    String.ofList (padded.take whole ++ '.' :: padded.drop whole)

/-- Whether a decimal has no digits behind the point. -/
def Form.isWhole (f : Form) : Bool :=
  0 ≤ f.exponent

/-- A binary number in full: its shortest decimal with at least one digit behind the point, or a
word for the values that are not finite. -/
def floatText (x : Float) : String :=
  let bits := x.toBits
  let sign := if bits >>> 63 = 0 then "" else "-"
  if (bits >>> 52) &&& 0x7FF = 0x7FF then
    sign ++ (if bits &&& 0xFFFFFFFFFFFFF = 0 then "inf" else "nan")
  else
    let form := (Binary.ofBits bits).shortest
    sign ++ form.positional ++ (if form.isWhole then ".0" else "")

end PhasedBuild.Decimal
