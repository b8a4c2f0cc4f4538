import PhasedBuild.Pattern.Set
import PhasedBuild.Text.Alphanumeric

/-!
# Well-formed patterns

A pattern is a regular expression. It stands between braces, so it has no closing brace of its own,
and with it none of the forms that need one, such as counted repetitions.

* `Pattern.isValid` says whether a text is a pattern.
-/

namespace PhasedBuild.Pattern

/-- A part of a sequence. -/
inductive Part where
  /-- Flags, which cannot be repeated. -/
  | flags
  /-- What matches something, with its depth. -/
  | piece (depth : Nat)
deriving Repr, Inhabited

/-- The depth of a part. -/
def Part.depth : Part → Nat
  | .flags => 0
  | .piece depth => depth

/-- A group that has not been closed, or the whole pattern. -/
structure OpenGroup where
  /-- The mode behind the group. -/
  after : Mode := {}
  /-- The depths of the alternatives that are complete, the last one first. -/
  alternatives : List Nat := []
  /-- The parts of the alternative that is being read, the last one first. -/
  parts : List Part := []
deriving Inhabited

namespace OpenGroup

/-- The depth of the alternative that is being read. -/
def sequenceDepth (g : OpenGroup) : Nat :=
  besideDepth (g.parts.map Part.depth)

/-- The depth of all alternatives. -/
def depth (g : OpenGroup) : Nat :=
  if g.alternatives.isEmpty then g.sequenceDepth
  else besideDepth (g.sequenceDepth :: g.alternatives)

/-- The group with one more part. -/
def add (g : OpenGroup) (part : Part) : OpenGroup :=
  { g with parts := part :: g.parts }

/-- The group with its last part repeated. -/
def repeatLast? (g : OpenGroup) : Option OpenGroup :=
  match g.parts with
  | .piece depth :: parts => some { g with parts := .piece (depth + 1) :: parts }
  | _ => none

/-- The group at the start of its next alternative. -/
def nextAlternative (g : OpenGroup) : OpenGroup :=
  { g with alternatives := g.sequenceDepth :: g.alternatives, parts := [] }

end OpenGroup

/-- A pattern of which some characters have been read. -/
structure Progress where
  mode : Mode := {}
  current : OpenGroup := {}
  outer : List OpenGroup := []
  /-- The names of groups. -/
  names : List String := []

namespace Progress

/-- One more part. -/
def add (p : Progress) (part : Part) : Progress :=
  { p with current := p.current.add part }

/-- The start of a group with a mode. -/
def openGroup (p : Progress) (mode : Mode) : Progress :=
  { p with mode, current := { after := p.mode }, outer := p.current :: p.outer }

/-- The end of a group. -/
def closeGroup? (p : Progress) : Option Progress :=
  match p.outer with
  | [] => none
  | around :: outer =>
    some { p with
      mode := p.current.after
      current := around.add (.piece (1 + p.current.depth))
      outer }

/-- Whether a character can stand in the name of a group. -/
def isNameChar (c : Char) : Bool :=
  ['_', '.', '[', ']'].contains c || Text.isAlphanumeric c

/-- Reads the name of a group, and opens the group. -/
def openNamed? (p : Progress) (cs : List Char) : Option (Progress × List Char) :=
  let name := cs.takeWhile (· != '>')
  match cs.dropWhile (· != '>'), name with
  | '>' :: rest, first :: _ =>
    let key := String.ofList name
    if (first = '_' || Text.isLetter first) && name.all isNameChar && !p.names.contains key then
      some ({ p with names := key :: p.names }.openGroup p.mode, rest)
    else none
  | _, _ => none

/-- Reads what follows an opening bracket: a group, or flags for the rest of the group around. -/
def openBracket? (p : Progress) (cs : List Char) : Option (Progress × List Char) :=
  match p.mode.skip cs with
  | '?' :: 'P' :: '<' :: rest => p.openNamed? rest
  | '?' :: '<' :: rest => p.openNamed? rest
  | '?' :: rest =>
    match p.mode.flags? [] rest with
    | some (mode, _, ':' :: rest) => some (p.openGroup mode, rest)
    | some (mode, _ :: _, ')' :: rest) => some ({ p with mode }.add .flags, rest)
    | _ => none
  | rest => some (p.openGroup p.mode, rest)

/-- Reads the next character and what belongs to it. -/
def step? (p : Progress) : List Char → Option (Progress × List Char)
  | [] => none
  | c :: cs =>
    if c = '(' then p.openBracket? cs
    else if c = ')' then p.closeGroup?.map (·, cs)
    else if c = '|' then some ({ p with current := p.current.nextAlternative }, cs)
    else if c = '[' then
      (set? p.mode cs).map fun (depth, rest) => (p.add (.piece depth), rest)
    else if c = '?' || c = '*' || c = '+' then
      p.current.repeatLast?.map fun current =>
        ({ p with current }, if cs.head? = some '?' then cs.tail else cs)
    else if c = '\x7b' then none
    else if c = '\x5c' then
      match escape? p.mode cs with
      | some (read, rest) =>
        if read.isAllowed p.mode then some (p.add (.piece 0), rest) else none
      | none => none
    else if c = '.' && !p.mode.unicode then none
    else if ['.', '^', '$'].contains c || p.mode.allowsChar c false then
      some (p.add (.piece 0), cs)
    else none

/-- Reads the rest of a pattern and gives its depth. -/
def finish? (p : Progress) : Nat → List Char → Option Nat
  | 0, _ => none
  | n + 1, cs =>
    match p.mode.skip cs with
    | [] => if p.outer.isEmpty then some p.current.depth else none
    | cs =>
      match p.step? cs with
      | some (p, rest) => p.finish? n rest
      | none => none

end Progress

/-- How deep a pattern may be. -/
def maxDepth : Nat := 250

/-- Whether a text is a pattern. -/
def isValid (cs : List Char) : Bool :=
  (({} : Progress).finish? (cs.length + 1) cs).any (· ≤ maxDepth)

end PhasedBuild.Pattern
