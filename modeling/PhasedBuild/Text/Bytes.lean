/-!
# Texts cut by bytes

Places in a text count the bytes of its form in UTF-8. A cut inside a character fails.

* `Text.takeBytes?` and `Text.dropBytes?` are the two parts of a text.
-/

namespace PhasedBuild.Text

/-- The number of bytes that characters take. -/
def byteCount (cs : List Char) : Nat :=
  (cs.map Char.utf8Size).foldl (· + ·) 0

/-- The characters in the first `n` bytes. -/
def takeBytes? (n : Nat) : List Char → Option (List Char)
  | [] => if n = 0 then some [] else none
  | c :: cs =>
    if n = 0 then some []
    else if c.utf8Size ≤ n then (takeBytes? (n - c.utf8Size) cs).map (c :: ·)
    else none

/-- The characters behind the first `n` bytes. -/
def dropBytes? (n : Nat) : List Char → Option (List Char)
  | [] => if n = 0 then some [] else none
  | c :: cs =>
    if n = 0 then some (c :: cs)
    else if c.utf8Size ≤ n then dropBytes? (n - c.utf8Size) cs
    else none

end PhasedBuild.Text
