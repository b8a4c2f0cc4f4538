/-!
# Splitting a text at a character

* `Text.splitChars` cuts at every occurrence of a separator, so that joining the pieces with the
  separator gives the text back (`Text.joinChars_splitChars`).
* `Text.splitOnce?` cuts at the first occurrence only.
* `Text.after?` is what follows a given beginning.
* `Text.firstLine` is what stands before the first line break.
-/

namespace PhasedBuild.Text

/-- The pieces between the occurrences of `sep`; a text without one is its own only piece. -/
def splitChars (sep : Char) : List Char → List (List Char)
  | [] => [[]]
  | c :: cs =>
    if c = sep then [] :: splitChars sep cs
    else match splitChars sep cs with
      | [] => [[c]]
      | piece :: rest => (c :: piece) :: rest

/-- The pieces with one separator between each two. -/
def joinChars (sep : Char) : List (List Char) → List Char
  | [] => []
  | [piece] => piece
  | piece :: rest => piece ++ sep :: joinChars sep rest

/-- There is one piece at least. -/
theorem splitChars_ne_nil (sep : Char) (cs : List Char) : splitChars sep cs ≠ [] := by
  cases cs with
  | nil => simp [splitChars]
  | cons c cs =>
    unfold splitChars
    split
    · simp
    · split <;> simp

/-- Pieces make up what has been split. -/
theorem joinChars_splitChars (sep : Char) (cs : List Char) :
    joinChars sep (splitChars sep cs) = cs := by
  induction cs with
  | nil => rfl
  | cons c cs ih =>
    unfold splitChars
    split
    next h =>
      match hs : splitChars sep cs with
      | [] => exact absurd hs (splitChars_ne_nil sep cs)
      | piece :: rest => rw [hs] at ih; simp [joinChars, ih, h]
    next h =>
      match hs : splitChars sep cs with
      | [] => exact absurd hs (splitChars_ne_nil sep cs)
      | [piece] => rw [hs] at ih; simpa [joinChars] using ih
      | piece :: next :: rest => rw [hs] at ih; simpa [joinChars] using ih

/-- The pieces of a text between the occurrences of `sep`. -/
def splitOn (sep : Char) (s : String) : List String :=
  (splitChars sep s.toList).map String.ofList

/-- What stands before and after the first `sep`, if there is one. -/
def splitOnce? (sep : Char) (s : String) : Option (String × String) :=
  let front := s.toList.takeWhile (· != sep)
  match s.toList.dropWhile (· != sep) with
  | [] => none
  | _ :: back => some (String.ofList front, String.ofList back)

/-- What is left of `cs` behind `lead`, if `cs` begins with it. -/
def afterChars? : List Char → List Char → Option (List Char)
  | [], cs => some cs
  | _ :: _, [] => none
  | l :: lead, c :: cs => if l = c then afterChars? lead cs else none

/-- What follows `lead` in a text that begins with it. -/
def after? (lead s : String) : Option String :=
  (afterChars? lead.toList s.toList).map String.ofList

/-- What stands behind a lead is the rest of the characters. -/
theorem afterChars?_eq_some {lead cs rest : List Char} :
    afterChars? lead cs = some rest ↔ cs = lead ++ rest := by
  induction lead generalizing cs with
  | nil => simp [afterChars?]
  | cons l lead ih =>
    cases cs with
    | nil => simp [afterChars?]
    | cons c cs =>
      unfold afterChars?
      split
      next h => simp [ih, h]
      next h => simp [Ne.symm h]

/-- Whether `c` occurs in a text. -/
def mentions (c : Char) (s : String) : Bool :=
  s.toList.contains c

/-- What stands before the first line break, to which a carriage return in front of it belongs. -/
def firstLine (s : String) : String :=
  let line := s.toList.takeWhile (· != '\n')
  String.ofList (if line.getLast? = some '\r' then line.dropLast else line)

end PhasedBuild.Text
