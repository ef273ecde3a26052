/-
Loops inside `<select>` and `<optgroup>`. A browser drops unknown elements there, so the containers
of loops are replaced by pairs of comments: a marker with the loop's variable and iterable, and an
end marker. Names are matched in any letter case.
-/
import FlowTemplate.Markup.Name
import FlowTemplate.Text.Case
import FlowTemplate.Text.Segment
import FlowTemplate.Text.Word

namespace FlowTemplate.SelectMarker

/-- Whether a character is the small letter `letter` in some case. Beside its capital, an s may be a
long one, an i may have or lack its dot, and a k may be the sign of the kelvin. -/
def isLetter (letter c : Char) : Bool :=
  c.toLower = letter || (letter = 's' && c = 'ſ') || (letter = 'i' && (c = 'ı' || c = 'İ'))
    || (letter = 'k' && c = '\u212a')

/-- The spelling of a name at the front of a text, in any letter case, and what follows it. The name
is given in small letters. -/
def readAnyCase? : Text → Text → Option (Text × Text)
  | [], text => some ([], text)
  | _ :: _, [] => none
  | letter :: letters, c :: cs =>
    if isLetter letter c then
      (readAnyCase? letters cs).map fun (spelling, rest) => (c :: spelling, rest)
    else none

/-- What follows a name in any letter case. -/
def afterAnyCase? (name text : Text) : Option Text := (readAnyCase? name text).map (·.2)

/-- What follows a second spelling of a name, which has the same letters up to their case. -/
def afterSameName? : Text → Text → Option Text
  | [], text => some text
  | _ :: _, [] => none
  | d :: ds, c :: cs => if lowerChar c = lowerChar d then afterSameName? ds cs else none

/-- An element in which loops become markers: its name and attributes as written, and what stands
up to the next end tag of that name. -/
structure Element where
  name : Text
  attributes : Text
  content : Text
  deriving DecidableEq, Repr

/-- An element that begins at the front of a text. Any text up to the first closing angle counts as
its attributes. -/
def readElement : Recogniser Element := fun text => do
  let rest ← Text.after? ['<'] text
  let (name, rest) ←
    (readAnyCase? "select".toList rest).or (readAnyCase? "optgroup".toList rest)
  let (attributes, rest) ← Markup.readUntil? '>' rest
  let afterEnd? (text : Text) : Option Text := do
    Text.after? ['>'] (← afterSameName? name (← Text.after? ['<', '/'] text))
  let (content, rest) ← Markup.readUpTo? afterEnd? rest
  some (⟨name, attributes, content⟩, rest)

/-- A loop as it stands in markup. -/
structure LoopElement where
  item : Text
  iterable : Text
  body : Text
  deriving DecidableEq, Repr

/-- The iterable at the front of a text that goes up to a quote: all but the blanks before it, of
which there is at least one. If nothing else is there, the last blank is the iterable. -/
def iterable? (text : Text) : Option Text :=
  match text with
  | [] => none
  | c :: cs =>
    if !isBlank c then none
    else
      match Text.trimStart cs with
      | [] => cs.getLast?.map ([·])
      | iterable => some iterable

/-- The container of a loop at the front of a text, with nothing but a plain loop expression in its
directive up to the iterable. -/
def readLoop : Recogniser LoopElement := fun text => do
  let rest ← afterAnyCase? "<ng-container".toList text
  let rest ← afterAnyCase? "*ngfor".toList (← rest.afterBlanks?)
  let rest ← Text.after? ['='] rest.trimStart
  let rest ← Text.after? ['"'] rest.trimStart
  let rest ← (← afterAnyCase? "let".toList rest).afterBlanks?
  let item := rest.takeWhile isWord
  if item.isEmpty then none
  else
    let rest ← Text.afterBlanks? (rest.dropWhile isWord)
    let rest ← afterAnyCase? "of".toList rest
    let (inside, rest) ← Markup.readUntil? '"' rest
    let iterable ← iterable? inside
    let (_, rest) ← Markup.readUntil? '>' rest
    let (body, rest) ← Markup.readUpTo? (afterAnyCase? "</ng-container>".toList) rest
    some (⟨item, iterable, body⟩, rest)

/-- What begins a marker of a loop. -/
def markerStart : Text := "<!--F:".toList

/-- The marker that ends a loop. -/
def markerEnd : Text := "<!--/F-->".toList

/-- A loop between its markers. -/
def markLoop (loop : LoopElement) : Text :=
  markerStart ++ loop.item ++ [':'] ++ loop.iterable ++ "-->".toList ++ loop.body.trim ++ markerEnd

/-- An element with the loops in it replaced by markers. -/
def markElement (element : Element) : Text :=
  ['<'] ++ element.name ++ element.attributes ++ ['>']
    ++ Text.replace readLoop markLoop element.content ++ ['<', '/'] ++ element.name ++ ['>']

/-- Every select and option group of a template with the loops in it replaced by markers. -/
def compile (template : Text) : Text := Text.replace readElement markElement template

end FlowTemplate.SelectMarker
