/-
White space of a template. Between two tags, text loses the blanks at its ends and keeps one space
for every run of blanks inside; text before the first tag or after the last keeps one space on the
side of the tag; blank text next to a tag goes altogether. Tags stay as they are.
-/
import FlowTemplate.Minify.Comment

namespace FlowTemplate.Minify

/-- A tag, opening or closing, up to the first closing angle. -/
def readTag : Recogniser Unit := fun text => do
  let rest ← Text.after? ['<'] text
  let rest := (Text.after? ['/'] rest).getD rest
  let (_, rest) ← Markup.readName? rest
  match rest with
  | '>' :: rest => some ((), rest)
  | '/' :: '>' :: rest => some ((), rest)
  | c :: _ =>
    if isBlank c then (Markup.readUntil? '>' rest).map fun (_, rest) => ((), rest) else none
  | [] => none

/-- The tags of a template and the text between them. -/
def parts (template : Text) : List (Segment Unit) := Segment.ofText readTag template

/-- One space, if there is a character and it is a blank. -/
def spaceFor (c? : Option Char) : Text := if c?.any isBlank then [' '] else []

/-- Text next to tags, on either side or on both. -/
def minifyGap (afterTag beforeTag : Bool) (text : Text) : Text :=
  let words := text.trim.collapse
  match afterTag, beforeTag with
  | false, false => text.collapse
  | true, true => words
  | true, false => if words.isEmpty then [] else spaceFor text.head? ++ words
  | false, true => if words.isEmpty then [] else words ++ spaceFor text.getLast?

/-- The parts with their white space reduced. The first of them comes after a tag or not. -/
def minifyParts (afterTag : Bool) : List (Segment Unit) → Text
  | [] => []
  | .hit _ tag :: rest => tag ++ minifyParts true rest
  | .gap text :: rest => minifyGap afterTag (!rest.isEmpty) text ++ minifyParts false rest

/-- The template with its white space reduced. -/
def minifySpace (template : Text) : Text := minifyParts false (parts template)

/-- The value of an attribute without blanks at its ends and with single spaces inside. -/
def minifyValue (value : Text) : Text := value.trim.collapse

/-- The template without comments and with its white space reduced. -/
def minify (template : Text) : Text := minifySpace (removeComments template)

end FlowTemplate.Minify
