import PhasedBuild.Decimal.Reading

/-!
# Dates and times of TOML

* `Toml.moment?` reads a date, a time of day or both, and gives its canonical form: the date and the
  time stand on the two sides of a `T`, and zeros at the end of a fraction are left out.
-/

namespace PhasedBuild.Toml

/-- The number written by the next `n` digits, and the characters behind them. -/
def digits? (n : Nat) (cs : List Char) : Option (Nat × List Char) :=
  if cs.length < n then none
  else (Decimal.nat? (cs.take n)).map fun value => (value, cs.drop n)

/-- A number with at least `n` digits. -/
def padded (n value : Nat) : String :=
  let digits := (toString value).toList
  String.ofList (List.replicate (n - digits.length) '0' ++ digits)

/-- The number of days of a month. -/
def daysOf (year month : Nat) : Nat :=
  if month = 2 then
    if year % 400 = 0 || (year % 4 = 0 && year % 100 != 0) then 29 else 28
  else if [4, 6, 9, 11].contains month then 30
  else 31

/-- A date. -/
def date? (cs : List Char) : Option (String × List Char) :=
  match digits? 4 cs with
  | some (year, '-' :: cs) =>
    match digits? 2 cs with
    | some (month, '-' :: cs) =>
      match digits? 2 cs with
      | some (day, cs) =>
        if 1 ≤ month && month ≤ 12 && 1 ≤ day && day ≤ daysOf year month then
          some (padded 4 year ++ "-" ++ padded 2 month ++ "-" ++ padded 2 day, cs)
        else none
      | none => none
    | _ => none
  | _ => none

/-- A fraction of a second without its zeros at the end; what lies beyond nine digits is dropped. -/
def fractionText (digits : List Char) : String :=
  match ((digits.take 9).reverse.dropWhile (· == '0')).reverse with
  | [] => ".0"
  | kept => "." ++ String.ofList kept

/-- The seconds of a time of day and their fraction; they may be missing. -/
def seconds? (cs : List Char) : Option (String × List Char) :=
  match cs with
  | ':' :: rest =>
    match digits? 2 rest with
    | none => none
    | some (second, rest) =>
      if 60 < second then none
      else match rest with
        | '.' :: rest =>
          match rest.takeWhile Char.isDigit with
          | [] => none
          | digits =>
            some (":" ++ padded 2 second ++ fractionText digits, rest.dropWhile Char.isDigit)
        | rest => some (":" ++ padded 2 second, rest)
  | _ => some ("", cs)

/-- A time of day. -/
def time? (cs : List Char) : Option (String × List Char) :=
  match digits? 2 cs with
  | some (hour, ':' :: cs) =>
    match digits? 2 cs with
    | some (minute, cs) =>
      if 23 < hour || 59 < minute then none
      else (seconds? cs).map fun (seconds, cs) =>
        (padded 2 hour ++ ":" ++ padded 2 minute ++ seconds, cs)
    | none => none
  | _ => none

/-- The distance of a time zone from the prime meridian; it may be missing. -/
def zone? (cs : List Char) : Option (String × List Char) :=
  match cs with
  | [] => some ("", [])
  | 'Z' :: cs => some ("Z", cs)
  | 'z' :: cs => some ("Z", cs)
  | sign :: cs =>
    if sign != '+' && sign != '-' then none
    else match digits? 2 cs with
      | some (hour, ':' :: cs) =>
        match digits? 2 cs with
        | some (minute, cs) =>
          if 23 < hour || 59 < minute then none
          else
            let shown := if hour = 0 && minute = 0 then '+' else sign
            some (shown.toString ++ padded 2 hour ++ ":" ++ padded 2 minute, cs)
        | none => none
      | _ => none

/-- A date, a time of day, or both with a time zone or without. -/
def moment? (cs : List Char) : Option String :=
  match date? cs with
  | some (date, []) => some date
  | some (date, separator :: cs) =>
    if separator != 'T' && separator != 't' && separator != ' ' then none
    else match time? cs with
      | some (time, cs) =>
        match zone? cs with
        | some (zone, []) => some (date ++ "T" ++ time ++ zone)
        | _ => none
      | none => none
  | none =>
    match time? cs with
    | some (time, []) => some time
    | _ => none

end PhasedBuild.Toml
