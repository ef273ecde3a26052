/-
Comments of a template. All are dropped but the markers of loops, which are instructions.
-/
import FlowTemplate.Markup.Name
import FlowTemplate.Text.Segment

namespace FlowTemplate.Minify

/-- Whether what follows the opening of a comment makes it a marker of a loop. -/
def isMarker (inside : Text) : Bool :=
  (Text.after? "F:".toList inside).isSome || (Text.after? "/F-->".toList inside).isSome

/-- A comment that is no marker, up to its end. -/
def readComment : Recogniser Unit := fun text => do
  let inside ← Text.after? "<!--".toList text
  if isMarker inside then none
  else
    let (_, rest) ← Markup.readUpTo? (Text.after? "-->".toList) inside
    some ((), rest)

/-- The template without its comments. -/
def removeComments (template : Text) : Text := Text.replace readComment (fun _ => []) template

end FlowTemplate.Minify
