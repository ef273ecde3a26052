/-
Blocks: `@keyword (header) {body}`. A keyword counts only where no longer name begins; the first
block from an offset on is found, or the reason why the first keyword starts none.
-/
import FlowTemplate.Delimiter
import FlowTemplate.Text.Segment
import FlowTemplate.Text.Word

namespace FlowTemplate

/-- Whether a name goes on with this character. -/
def continuesName (c : Char) : Bool := isWord c || c = '$'

/-- Whether a name that ends before `text` does end there. -/
def nameEnds : Text → Bool
  | [] => true
  | c :: _ => !continuesName c

/-- What follows the keyword at the front of a text. The keyword stands behind an at sign, and no
longer name begins with it. -/
def afterKeyword? (keyword text : Text) : Option Text :=
  (Text.after? ('@' :: keyword) text).filter nameEnds

/-- The offsets at which a keyword stands in a text, in order. -/
def keywordOffsets (keyword text : Text) : List Nat :=
  (text.occurrencesWithOffsets fun t => (afterKeyword? keyword t).map ((), ·)).map (·.1)

/-- A block `@keyword (header) {body}` in a text. The spans have the delimiters in them. -/
structure Block where
  keyword : Text
  /-- The offset of the at sign. -/
  start : Nat
  header : Span
  body : Span
  deriving DecidableEq, Repr

namespace Block

/-- The offset just past the block. -/
def stop (block : Block) : Nat := block.body.stop

/-- The text between the parentheses. -/
def headerText (block : Block) (text : Text) : Text := block.header.innerText text

/-- The text between the braces. -/
def bodyText (block : Block) (text : Text) : Text := block.body.innerText text

/-- The header and the body that follow a keyword which ends at `index`. -/
def groups (text : Text) (index : Nat) : Except Fault (Span × Span) := do
  let header ← expectGroup text index '('
  let body ← expectGroup text header.stop '{'
  return (header, body)

/-- The block of the keyword that stands at `start`. A malformed header is reported at the at sign,
with the text up to the character at which the reading failed. -/
def ofKeywordAt (text keyword : Text) (start : Nat) : Except Fault Block :=
  match groups text (start + 1 + keyword.length) with
  | .ok (header, body) => .ok ⟨keyword, start, header, body⟩
  | .error (.malformedHeader failed _) => .error (.malformedHeader start (text.slice start failed))
  | .error fault => .error fault

end Block

/-- The first block with the keyword at or after `start`, or none if the keyword does not occur
there any more. -/
def locate (text keyword : Text) (start : Nat) : Except Fault (Option Block) :=
  match Text.offsetOf? (fun t => (afterKeyword? keyword t).isSome) (text.drop start) with
  | none => .ok none
  | some distance => (Block.ofKeywordAt text keyword (start + distance)).map some

/-- Every block with the keyword from `start` on, each found from the end of the one before. The
search goes on behind the at sign of a malformed header, and an unbalanced group ends it. -/
def locateAllFrom (text keyword : Text) : Nat → Nat → List (Except Fault Block)
  | 0, _ => []
  | fuel + 1, start =>
    match locate text keyword start with
    | .ok none => []
    | .ok (some block) => .ok block :: locateAllFrom text keyword fuel block.stop
    | .error (.malformedHeader position header) =>
      .error (.malformedHeader position header) :: locateAllFrom text keyword fuel (position + 1)
    | .error fault => [.error fault]

/-- Every block with the keyword in a text, and the faults between them. -/
def locateAll (text keyword : Text) : List (Except Fault Block) :=
  locateAllFrom text keyword (text.length + 1) 0

end FlowTemplate
