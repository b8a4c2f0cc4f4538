import PhasedBuild.Pattern.Escape

/-!
# Sets of characters in a pattern

A set stands between square brackets: characters, ranges, named classes such as `[:alpha:]` and sets
inside it, also with the operators `&&`, `--` and `~~` between them.

* `Pattern.set?` reads a set and tells how deep it is.
-/

namespace PhasedBuild.Pattern

/-- The depth of a list of things that stand beside each other. -/
def besideDepth : List Nat → Nat
  | [] => 0
  | [depth] => depth
  | depths => 1 + depths.foldl max 0

/-- A set that has not been closed. -/
structure OpenSet where
  /-- The depths of what has been read since the last operator. -/
  items : List Nat := []
  /-- The depth of what stands before the last operator. -/
  left : Option Nat := none
deriving Repr, Inhabited

namespace OpenSet

/-- The set with one more item. -/
def add (s : OpenSet) (depth : Nat) : OpenSet :=
  { s with items := depth :: s.items }

/-- The depth of what stands between the brackets. -/
def depth (s : OpenSet) : Nat :=
  match s.left with
  | none => besideDepth s.items
  | some left => 1 + max left (besideDepth s.items)

/-- The set behind an operator. -/
def operator (s : OpenSet) : OpenSet :=
  { left := some s.depth }

end OpenSet

/-- The names of the classes of ASCII characters. -/
def classNames : List String :=
  ["alnum", "alpha", "ascii", "blank", "cntrl", "digit", "graph", "lower", "print", "punct",
    "space", "upper", "word", "xdigit"]

/-- Reads a named class, whose first bracket has been passed; `true` means that it is negated. -/
def namedClass? (cs : List Char) : Option (Bool × List Char) :=
  match cs with
  | ':' :: cs =>
    let negated := cs.head? = some '^'
    let cs := if negated then cs.tail else cs
    match cs.dropWhile (· != ':') with
    | ':' :: ']' :: rest =>
      if classNames.contains (String.ofList (cs.takeWhile (· != ':'))) then some (negated, rest)
      else none
    | _ => none
  | _ => none

/-- Reads the start of a set, whose first bracket has been passed: a sign that negates it, and what
stands for itself at this place. -/
def setStart? (m : Mode) (cs : List Char) : Option (OpenSet × List Char) :=
  let cs := m.skip cs
  let negated := cs.head? = some '^'
  let cs := if negated then m.skip cs.tail else cs
  if negated && !m.unicode then none
  else
    let dashes := cs.takeWhile (· = '-')
    match cs.dropWhile (· = '-') with
    | ']' :: rest =>
      if dashes.isEmpty then some ({ items := [0] }, rest)
      else some ({ items := dashes.map fun _ => 0 }, ']' :: rest)
    | rest => some ({ items := dashes.map fun _ => 0 }, rest)

/-- Reads one character or escape of a set. -/
def setItem? (m : Mode) : List Char → Option (Escape × List Char)
  | [] => none
  | '\x5c' :: cs => escape? m cs
  | c :: cs => some (.char c false, cs)

/-- Whether a mode allows an item of a set. -/
def isSetItem (m : Mode) : Escape → Bool
  | .char c _ => m.unicode || c.toNat < 0x80
  | .characters negated => !m.unicode && !negated
  | _ => false

/-- Reads an item of a set or a range of characters. -/
def setRange? (m : Mode) (cs : List Char) : Option (List Char) := do
  let (first, cs) ← setItem? m cs
  let single : Option (List Char) := if isSetItem m first then some cs else none
  match m.skip cs with
  | '-' :: rest =>
    let next := (m.skip rest).head?
    if next = some ']' || next = some '-' then single
    else
      let (last, rest) ← setItem? m (m.skip rest)
      match first, last with
      | .char a _, .char b _ =>
        if isSetItem m first && isSetItem m last && a.toNat ≤ b.toNat then some rest else none
      | _, _ => none
  | _ => single

/-- Reads the rest of a set. `current` is the innermost set that is open, and `outer` are those
around it. -/
def setRest? (m : Mode) (current : OpenSet) (outer : List OpenSet) :
    Nat → List Char → Option (Nat × List Char)
  | 0, _ => none
  | n + 1, cs =>
    match m.skip cs with
    | [] => none
    | ']' :: rest =>
      match outer with
      | [] => some (1 + current.depth, rest)
      | around :: others => setRest? m (around.add (1 + current.depth)) others n rest
    | '[' :: rest =>
      match namedClass? rest with
      | some (negated, rest) =>
        if negated && !m.unicode then none else setRest? m (current.add 0) outer n rest
      | none =>
        match setStart? m rest with
        | some (inner, rest) => setRest? m inner (current :: outer) n rest
        | none => none
    | '&' :: '&' :: rest => setRest? m current.operator outer n rest
    | '-' :: '-' :: rest => setRest? m current.operator outer n rest
    | '~' :: '~' :: rest => setRest? m current.operator outer n rest
    | cs =>
      match setRange? m cs with
      | some rest => setRest? m (current.add 0) outer n rest
      | none => none

/-- Reads a set, whose first bracket has been passed, and gives its depth. -/
def set? (m : Mode) (cs : List Char) : Option (Nat × List Char) :=
  if m.unicode && m.ignoreCase then none
  else match setStart? m cs with
    | some (start, rest) => setRest? m start [] (cs.length + 1) rest
    | none => none

end PhasedBuild.Pattern
