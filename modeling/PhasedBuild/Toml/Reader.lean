import PhasedBuild.Toml.Scalar
import PhasedBuild.Toml.Strings
import PhasedBuild.Toml.Tree

/-!
# Reading TOML

* `Toml.value?` reads a value of any kind.
* `Toml.read?` reads a document, which is a table.
-/

namespace PhasedBuild.Toml

/-! ### Between values -/

mutual

/-- The characters behind blanks, line breaks and comments. -/
def skipFiller? : List Char → Option (List Char)
  | [] => some []
  | ' ' :: cs => skipFiller? cs
  | '\t' :: cs => skipFiller? cs
  | '\n' :: cs => skipFiller? cs
  | '\r' :: '\n' :: cs => skipFiller? cs
  | '#' :: cs => skipComment? cs
  | c :: cs => some (c :: cs)

/-- The characters behind a comment and what follows it. -/
def skipComment? : List Char → Option (List Char)
  | [] => some []
  | '\n' :: cs => skipFiller? cs
  | '\r' :: '\n' :: cs => skipFiller? cs
  | c :: cs => if isTextChar c then skipComment? cs else none

end

/-- The characters behind the end of a line; only blanks and a comment may stand before it. -/
def endLine? (cs : List Char) : Option (List Char) :=
  match skipSpaces cs with
  | [] => some []
  | '#' :: rest =>
    let rest := rest.dropWhile isTextChar
    if rest.isEmpty then some [] else afterBreak? rest
  | rest => afterBreak? rest

/-! ### Values -/

/-- Whether a character can belong to a value without quotes or brackets. -/
def isScalarChar (c : Char) : Bool :=
  c.isAlphanum || ['_', '+', '-', '.', ':'].contains c

/-- A value without quotes or brackets. A blank may stand between a date and a time of day. -/
def bare? (cs : List Char) : Option (Datum × List Char) :=
  let word := cs.takeWhile isScalarChar
  let rest := cs.dropWhile isScalarChar
  let isDate := match date? word with
    | some (_, []) => true
    | _ => false
  match rest with
  | ' ' :: next :: more =>
    if isDate && next.isDigit then
      let time := (next :: more).takeWhile isScalarChar
      (scalar? (word ++ ' ' :: time)).map (·, (next :: more).dropWhile isScalarChar)
    else (scalar? word).map (·, rest)
  | _ => (scalar? word).map (·, rest)

mutual

/-- A value. At most `depth` lists and tables lie inside each other. -/
def value? (fuel depth : Nat) (cs : List Char) : Option (Datum × List Char) :=
  match fuel with
  | 0 => none
  | fuel + 1 =>
    match cs with
    | '[' :: rest =>
      if depth = 0 then none
      else (items? fuel (depth - 1) rest).map fun (items, rest) => (.list items, rest)
    | '\x7b' :: rest =>
      if depth = 0 then none
      else (fields? fuel (depth - 1) [] rest).map fun (fields, rest) =>
        (.table (Tree.toFields fields), rest)
    | '\x22' :: _ => (quoted? cs).map fun (text, rest) => (.text (String.ofList text), rest)
    | '\x27' :: _ => (quoted? cs).map fun (text, rest) => (.text (String.ofList text), rest)
    | _ => bare? cs

/-- The rest of a list. A comma may follow the last item. -/
def items? (fuel depth : Nat) (cs : List Char) : Option (List Datum × List Char) :=
  match fuel with
  | 0 => none
  | fuel + 1 =>
    match skipFiller? cs with
    | none => none
    | some (']' :: rest) => some ([], rest)
    | some cs =>
      match value? fuel depth cs with
      | none => none
      | some (item, rest) =>
        match skipFiller? rest with
        | some (',' :: rest) =>
          (items? fuel depth rest).map fun (items, rest) => (item :: items, rest)
        | some (']' :: rest) => some ([item], rest)
        | _ => none

/-- The rest of a table between braces, of which some fields have been read. A comma may follow the
last field. -/
def fields? (fuel depth : Nat) (fields : Tree.Branches) (cs : List Char) :
    Option (Tree.Branches × List Char) :=
  match fuel with
  | 0 => none
  | fuel + 1 =>
    match skipFiller? cs with
    | none => none
    | some ('\x7d' :: rest) => some (fields, rest)
    | some cs =>
      match keyPath? cs with
      | some (path, '=' :: rest) =>
        match value? fuel depth (skipSpaces rest) with
        | none => none
        | some (value, rest) =>
          match Tree.insert? (.value value) fields path, skipFiller? rest with
          | some fields, some (',' :: rest) => fields? fuel depth fields rest
          | some fields, some ('\x7d' :: rest) => some (fields, rest)
          | _, _ => none
      | _ => none

end

/-! ### Documents -/

/-- A document of which some lines have been read: its fields, and the path of the table to which
the next lines belong. -/
structure Draft where
  fields : Tree.Branches := []
  path : List String := []

namespace Draft

/-- The rest of a header, which defines a table. -/
def header? (draft : Draft) (cs : List Char) : Option (Draft × List Char) :=
  match keyPath? cs with
  | some (path, ']' :: rest) =>
    (Tree.open? draft.fields path).map fun fields => ({ fields, path }, rest)
  | _ => none

/-- The rest of a header that adds a table to a list of tables. -/
def listHeader? (draft : Draft) (cs : List Char) : Option (Draft × List Char) :=
  match keyPath? cs with
  | some (path, ']' :: ']' :: rest) =>
    (Tree.append? draft.fields path).map fun fields => ({ fields, path }, rest)
  | _ => none

/-- A key and its value. -/
def assignment? (draft : Draft) (cs : List Char) : Option (Draft × List Char) :=
  match keyPath? cs with
  | some (path, '=' :: rest) =>
    match value? (2 * cs.length + 2) maxNesting (skipSpaces rest) with
    | some (value, rest) =>
      let add (fields : Tree.Branches) := Tree.insert? (.value value) fields path
      (Tree.changeAt? add draft.fields draft.path).map fun fields => ({ draft with fields }, rest)
    | none => none
  | _ => none

/-- One line that is neither empty nor a comment. -/
def line? (draft : Draft) (cs : List Char) : Option (Draft × List Char) :=
  match cs with
  | '[' :: '[' :: rest => draft.listHeader? rest
  | '[' :: rest => draft.header? rest
  | _ => draft.assignment? cs

/-- The lines of a document. -/
def lines? (draft : Draft) : Nat → List Char → Option Draft
  | 0, _ => none
  | n + 1, cs =>
    match skipFiller? cs with
    | none => none
    | some [] => some draft
    | some cs =>
      match draft.line? cs with
      | none => none
      | some (draft, rest) => (endLine? rest).bind (draft.lines? n)

end Draft

/-- The table that a document describes. A mark of the byte order may stand in front of it. -/
def read? (s : String) : Option Datum :=
  let cs := match s.toList with
    | '\uFEFF' :: rest => rest
    | cs => cs
  (({} : Draft).lines? (cs.length + 1) cs).map fun draft => .table (Tree.toFields draft.fields)

end PhasedBuild.Toml
