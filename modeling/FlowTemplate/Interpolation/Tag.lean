/-
Interpolated attributes: in every opening tag, the attributes whose value holds an interpolated
expression are taken out and gathered into one attribute of bindings.
-/
import FlowTemplate.Interpolation.Binding

namespace FlowTemplate.Interpolation

/-- The attribute that holds the bindings of a tag. -/
def bindingsAttribute : Text := "data-quarc-attr-bindings".toList

/-- An opening tag: its name, and the text between the name and the first closing angle. -/
def readTag : Recogniser (Text × Text) := fun text => do
  let (name, rest) ← Markup.readName? (← Text.after? ['<'] text)
  match rest with
  | '>' :: rest => some ((name, []), rest)
  | c :: _ =>
    if isBlank c then do
      let (attributes, rest) ← Markup.readUntil? '>' rest
      some ((name, attributes), rest)
    else none
  | [] => none

/-- Whether two opening braces and later two closing braces stand in a value. -/
def hasBraces (value : Text) : Bool :=
  ((Markup.readUpTo? (Text.after? opening) value).bind fun (_, rest) =>
    Markup.readUpTo? (Text.after? closing) rest).isSome

/-- An attribute whose value, in double quotes, holds braces in pairs: its name and its value. -/
def readAttribute : Recogniser (Text × Text) := fun text => do
  let (name, rest) ← Markup.readName? text
  let rest ← Text.after? ['='] rest.trimStart
  let rest ← Text.after? ['"'] rest.trimStart
  let (value, rest) ← Markup.readUntil? '"' rest
  if hasBraces value then some ((name, value), rest) else none

/-- What becomes of a piece of the attribute text: the text that stays, and the bindings made. -/
def takeBinding : Segment (Text × Text) → Text × List Binding
  | .gap text => (text, [])
  | .hit (name, value) text =>
    if hasExpression value then ([], [⟨name, concatenation value⟩]) else (text, [])

/-- A tag with its interpolated attributes gathered. A tag that has none stays as it is. -/
def compileTag (whole name attributes : Text) : Text :=
  let pieces := (Segment.ofText readAttribute attributes).map takeBinding
  let bindings := pieces.flatMap (·.2)
  if bindings.isEmpty then whole
  else
    let remaining := Text.trim (pieces.flatMap (·.1))
    ['<'] ++ name ++ (if remaining.isEmpty then [] else ' ' :: remaining) ++ [' ']
      ++ bindingsAttribute ++ ['=', '"'] ++ Binding.encode bindings ++ ['"', '>']

/-- Every opening tag of a template with its interpolated attributes gathered. -/
def compileAttributes (template : Text) : Text :=
  (Segment.ofText readTag template).flatMap fun
    | .gap text => text
    | .hit (name, attributes) whole => compileTag whole name attributes

/-- Compiles interpolation, in attributes first, so that no value becomes an element. -/
def compile (template : Text) : Text := compileContent (compileAttributes template)

end FlowTemplate.Interpolation
