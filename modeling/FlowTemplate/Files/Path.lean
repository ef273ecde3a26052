/-
Paths as they are written. Empty parts and single dots do not count, and double dots stay.
-/
import FlowTemplate.Text.Basic

namespace FlowTemplate

/-- A path: whether it starts at the top, and the names along it. -/
structure Path where
  absolute : Bool
  parts : List Text
  deriving DecidableEq, Repr

namespace Path

/-- The name that stands for the directory around another. -/
def up : Text := ['.', '.']

/-- The path that a text spells. -/
def ofText (text : Text) : Path :=
  ⟨text.head? = some '/', (Text.splitOn '/' text).filter fun part => part ≠ [] && part ≠ ['.']⟩

/-- How a path is written. The path without names is a single dot. -/
def toText (path : Path) : Text :=
  match path.absolute, path.parts with
  | false, [] => ['.']
  | false, parts => Text.joinWith ['/'] parts
  | true, parts => '/' :: Text.joinWith ['/'] parts

/-- The path without its last name. -/
def parent (path : Path) : Path := { path with parts := path.parts.dropLast }

end Path

end FlowTemplate
