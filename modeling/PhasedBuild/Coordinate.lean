import PhasedBuild.Text.Split

/-!
# Plugin coordinates

A plugin is named by its group, its artifact and, if it matters, a version. Two coordinates with one
`key` name the same plugin, whatever their versions.
-/

namespace PhasedBuild

/-- The name of a plugin. -/
structure Coordinate where
  group : String
  artifact : String
  version : Option String := none
deriving Repr, Inhabited, DecidableEq

namespace Coordinate

/-- The identity of the plugin without its version. -/
def key (c : Coordinate) : String :=
  c.group ++ ":" ++ c.artifact

/-- The artifact with its version. -/
def shortDisplay (c : Coordinate) : String :=
  match c.version with
  | some version => c.artifact ++ ":" ++ version
  | none => c.artifact

/-- The written form, with the version if there is one. -/
def display (c : Coordinate) : String :=
  c.group ++ ":" ++ c.shortDisplay

/-- Reads the written form. No part may be empty. -/
def parse? (s : String) : Option Coordinate :=
  let parts := Text.splitOn ':' s
  if parts.any (·.isEmpty) then none
  else match parts with
    | [group, artifact] => some { group, artifact }
    | [group, artifact, version] => some { group, artifact, version := some version }
    | _ => none

end Coordinate

/-- The identity of a step: its plugin without the version, and its goal. -/
structure StepKey where
  plugin : String
  goal : String
deriving Repr, Inhabited, DecidableEq

/-- The written form of a step's identity. -/
def StepKey.display (k : StepKey) : String :=
  k.plugin ++ ":" ++ k.goal

end PhasedBuild
