/-
Scalars of a YAML stream in their five written forms: plain, in single or double quotes, and as
literal or folded blocks. A break inside a scalar is folded into a space, unless the form keeps it
or more breaks follow it.
-/
import FlowTemplate.Yaml.Token.Name

namespace FlowTemplate.Yaml.Scan

/-- Whether a document marker begins here: three hyphens or three dots, and the end of a word. -/
def atDocumentMarker : Scan Bool := do
  let rest := (← get).rest
  let marker := rest.take 3
  return (marker = "---".toList || marker = "...".toList) && atBlank rest[3]?

/-- A break followed by more breaks, folded: one line feed becomes a space unless more follow. -/
def fold (first more : Text) : Text :=
  if first ≠ ['\n'] then first ++ more else if more.isEmpty then [' '] else more

/-! ## Quoted scalars -/

/-- The character that an escape of one letter stands for. -/
def escape? (c : Char) : Option Char :=
  [('0', '\x00'), ('a', '\x07'), ('b', '\x08'), ('t', '\t'), ('\t', '\t'), ('n', '\n'),
    ('v', '\x0b'), ('f', '\x0c'), ('r', '\r'), ('e', '\x1b'), (' ', ' '), ('"', '"'),
    ('\\', '\\'), ('/', '/'), ('N', '\u0085'), ('_', '\u00a0'), ('L', '\u2028'),
    ('P', '\u2029')].lookup c

/-- How many digits follow the letter of a numeric escape. -/
def escapeWidth? (c : Char) : Option Nat := [('x', 2), ('u', 4), ('U', 8)].lookup c

/-- The breaks of a quoted scalar and the blanks in front of each line. No document marker may begin
a line. -/
def quotedBreaks : Scan Text :=
  loop (σ := Text) (fun breaks => do
    require !(← atDocumentMarker)
    let _ ← takeWhile fun c => c = ' ' || c = '\t'
    let next ← lineBreak
    return (breaks ++ next, !next.isEmpty)) []

/-- The last code point. -/
def lastCodePoint : Nat := 0x10FFFF

/-- An escape in a scalar in double quotes, behind its backslash. -/
def escape : Scan WideText := do
  match ← peek 0 with
  | none => fail
  | some c =>
    match escape? c, escapeWidth? c with
    | some meant, _ =>
      advance 1
      return [.char meant]
    | none, some width =>
      advance 1
      let number ← hexNumber width
      if lastCodePoint < number then throw (.scalar (.noCodePoint number))
      return [.ofNat number]
    | none, none =>
      require (isBreak c)
      let _ ← lineBreak
      return .ofText (← quotedBreaks)

/-- The characters of a quoted scalar up to the next blank, break or closing quote. -/
def quotedWord (quote : Char) : Scan WideText :=
  loop (σ := WideText) (fun word => do
    let plain ← takeWhile fun c =>
      !(c = '\'' || c = '"' || c = '\\' || c = ' ' || c = '\t' || isBreak c)
    let word := word ++ .ofText plain
    match ← peek 0 with
    | none => return (word, false)
    | some c =>
      if quote = '\'' && c = '\'' && (← peek 1) = some '\'' then
        advance 2
        return (word ++ [.char '\''], true)
      else if (quote = '"' && c = '\'') || (quote = '\'' && (c = '"' || c = '\\')) then
        advance 1
        return (word ++ [.char c], true)
      else if quote = '"' && c = '\\' then
        advance 1
        return (word ++ (← escape), true)
      else return (word, false)) []

/-- The blanks or breaks between two words of a quoted scalar. -/
def quotedSpace : Scan Text := do
  let blanks ← takeWhile fun c => c = ' ' || c = '\t'
  require (← peek 0).isSome
  let first ← lineBreak
  if first.isEmpty then return blanks
  return fold first (← quotedBreaks)

/-- A scalar in quotes. -/
def quotedScalar (quote : Char) : Scan WideText := do
  advance 1
  let first ← quotedWord quote
  let text ← loop (σ := WideText) (fun text => do
    if (← peek 0) = some quote then return (text, false)
    let space ← quotedSpace
    let word ← quotedWord quote
    return (text ++ .ofText space ++ word, true)) first
  advance 1
  return text

/-! ## Plain scalars -/

/-- Whether a plain scalar ends before the character at the front of `rest`. -/
def endsPlain (inFlow : Bool) : Text → Bool
  | [] => true
  | c :: rest =>
    atBlank (some c)
      || (c = ':' && (atBlank rest.head?
        || (inFlow && rest.head?.any fun d => ",[]\x7b\x7d".toList.contains d)))
      || (inFlow && ",?[]\x7b\x7d".toList.contains c)

/-- The characters of a plain scalar at the front of a text. -/
def plainWord (inFlow : Bool) : Text → Text
  | [] => []
  | c :: rest => if endsPlain inFlow (c :: rest) then [] else c :: plainWord inFlow rest

/-- The breaks between two lines of a plain scalar, and whether no document marker begins one. -/
def plainBreaks : Scan (Text × Bool) :=
  loop (σ := Text × Bool) (fun (breaks, _) => do
    if ← atDocumentMarker then return ((breaks, false), false)
    skipSpaces
    let next ← lineBreak
    if next.isEmpty then return ((breaks, true), false)
    return ((breaks ++ next, true), true)) ([], true)

/-- The spaces or breaks behind a word of a plain scalar. They are empty where the scalar ends. -/
def plainSpace : Scan Text := do
  let spaces ← takeWhile (· = ' ')
  let first ← lineBreak
  if first.isEmpty then return spaces
  setAllowKey true
  let (more, goesOn) ← plainBreaks
  return if goesOn then fold first more else []

/-- A plain scalar. It goes on over lines that stand further right than the block it is in. -/
def plainScalar : Scan Text := do
  let lexer ← get
  let inFlow := lexer.flowLevel ≠ 0
  let (text, _) ← loop (σ := Text × Text) (fun (text, space) => do
    let word := plainWord inFlow (← get).rest
    if word.isEmpty || word.head? = some '#' then return ((text, space), false)
    setAllowKey false
    advance word.length
    let text := text ++ space ++ word
    let space ← plainSpace
    let next ← get
    let done := space.isEmpty || next.rest.head? = some '#'
      || (!inFlow && (next.column : Int) < lexer.indent + 1)
    return ((text, space), !done)) ([], [])
  return text

/-! ## Block scalars -/

/-- What becomes of the breaks at the end of a block scalar. -/
inductive Chomping where
  | clip
  | keep
  | strip
  deriving DecidableEq, Repr

/-- The sign that sets how breaks at the end are treated. -/
def chomping? : Scan (Option Chomping) := do
  match ← peek 0 with
  | some '+' =>
    advance 1
    return some .keep
  | some '-' =>
    advance 1
    return some .strip
  | _ => return none

/-- The digit that sets how far a block scalar is indented. It is not zero. -/
def increment? : Scan (Option Nat) := do
  match ← peek 0 with
  | some c =>
    if c.isDigit then
      require (c ≠ '0')
      advance 1
      return some (c.toNat - '0'.toNat)
    else return none
  | none => return none

/-- The signs in the first line of a block scalar, in either order. -/
def blockSigns : Scan (Chomping × Option Nat) := do
  let (chomping?, increment?) ← match ← chomping? with
    | some chomping => do pure (some chomping, ← increment?)
    | none => match ← increment? with
      | some increment => do pure (← chomping?, some increment)
      | none => pure (none, none)
  require (atSpace (← peek 0))
  return (chomping?.getD .clip, increment?)

/-- The empty lines at the start of a block scalar, and the rightmost column reached by the spaces
in them and before the first word. -/
def blockIndentation : Scan (Text × Nat) :=
  loop (σ := Text × Nat) (fun (breaks, widest) => do
    skipSpaces
    let widest := max widest (← get).column
    let next ← lineBreak
    return ((breaks ++ next, widest), !next.isEmpty)) ([], 0)

/-- Passes over spaces up to a column. -/
def skipSpacesTo (column : Nat) : Scan Unit := do
  let lexer ← get
  advance ((lexer.rest.take (column - lexer.column)).takeWhile (· = ' ')).length

/-- The empty lines between two lines of a block scalar, and the indentation of the next one. -/
def blockBreaks (indent : Nat) : Scan Text :=
  loop (σ := Text) (fun breaks => do
    skipSpacesTo indent
    let next ← lineBreak
    return (breaks ++ next, !next.isEmpty)) []

/-- What is read of a block scalar: its text so far, the break of its last line, and the empty lines
behind that. -/
structure BlockLines where
  text : Text
  last : Text
  breaks : Text

/-- A block scalar, folded or literal. -/
def blockScalar (folded : Bool) : Scan Text := do
  let minimum := ((← get).indent + 1).toNat.max 1
  advance 1
  let (chomping, increment?) ← blockSigns
  endLine
  let (breaks, indent) ← match increment? with
    | some increment => do
      let indent := minimum + increment - 1
      pure (← blockBreaks indent, indent)
    | none => do
      let (breaks, widest) ← blockIndentation
      pure (breaks, max minimum widest)
  let atLine : Scan Bool := do
    let lexer ← get
    return lexer.column = indent && !lexer.rest.isEmpty
  let startsWithBlank : Scan Bool := do
    return (← peek 0).any fun c => c = ' ' || c = '\t'
  let lines ←
    if ← atLine then
      loop (σ := BlockLines) (fun lines => do
        let startedBlank ← startsWithBlank
        let line ← takeWhile fun c => !isBreak c
        let last ← lineBreak
        let text := lines.text ++ lines.breaks ++ line
        let breaks ← blockBreaks indent
        if ← atLine then
          let joined :=
            if folded && last = ['\n'] && !startedBlank && !(← startsWithBlank) then
              if breaks.isEmpty then [' '] else []
            else last
          return (⟨text ++ joined, [], breaks⟩, true)
        else return (⟨text, last, breaks⟩, false)) ⟨[], [], breaks⟩
    else pure ⟨[], [], breaks⟩
  return match chomping with
    | .strip => lines.text
    | .clip => lines.text ++ lines.last
    | .keep => lines.text ++ lines.last ++ lines.breaks

end FlowTemplate.Yaml.Scan
