/-
The tokens of a whole YAML stream. They are read as far as they are needed, so that of two faults
in a text the one that comes first is met first.
-/
import FlowTemplate.Yaml.Token.Scalar

namespace FlowTemplate.Yaml.Scan

/-- Passes over spaces, comments and breaks up to the next token. In block context a key may begin
on every new line. -/
def toNextToken : Scan Unit := do
  if (← get).index = 0 && (← peek 0) = some '\ufeff' then advance 1
  loop (σ := Unit) (fun _ => do
    skipSpaces
    skipComment
    let passed ← lineBreak
    if passed.isEmpty then return ((), false)
    if ← inBlock then setAllowKey true
    return ((), true)) ()

/-- Closes everything that is open in front of a directive, a document marker or the end. -/
def closeDocument : Scan Unit := do
  unwind (-1)
  dropKey
  setAllowKey false

/-- The end of the stream. -/
def scanStreamEnd : Scan Unit := do
  closeDocument
  emit .streamEnd

/-- A document marker. -/
def scanMarker (token : Token) : Scan Unit := do
  closeDocument
  advance 3
  emit token

/-- The start of a flow collection, which may be a key as a whole. -/
def scanFlowStart (token : Token) : Scan Unit := do
  saveKey
  modify fun lexer => { lexer with flowLevel := lexer.flowLevel + 1 }
  setAllowKey true
  advance 1
  emit token

/-- The end of a flow collection, which must be open. -/
def scanFlowEnd (token : Token) : Scan Unit := do
  dropKey
  require !(← inBlock)
  modify fun lexer => { lexer with flowLevel := lexer.flowLevel - 1 }
  setAllowKey false
  advance 1
  emit token

/-- The comma between two entries of a flow collection. -/
def scanFlowEntry : Scan Unit := do
  setAllowKey true
  dropKey
  advance 1
  emit .flowEntry

/-- In block context, opens a block collection here if the line allows one. -/
def openBlock (start : Token) : Scan Unit := do
  if ← inBlock then
    require (← get).allowKey
    if ← indentTo (← get).column then emit start

/-- The hyphen before an entry of a block sequence. -/
def scanBlockEntry : Scan Unit := do
  openBlock .blockSequenceStart
  setAllowKey true
  dropKey
  advance 1
  emit .blockEntry

/-- The question mark before a key. -/
def scanKey : Scan Unit := do
  openBlock .blockMappingStart
  setAllowKey (← inBlock)
  dropKey
  advance 1
  emit .key

/-- The colon before a value. What was a possible key before it is one now. -/
def scanValue : Scan Unit := do
  match ← possibleKey? with
  | some key =>
    forgetKey
    insert key.token .key
    if ← inBlock then
      if ← indentTo key.column then insert key.token .blockMappingStart
    setAllowKey false
  | none =>
    openBlock .blockMappingStart
    setAllowKey (← inBlock)
    dropKey
  advance 1
  emit .value

/-- A token that may be a key or the start of one. -/
def scanSimple (read : Scan Token) : Scan Unit := do
  saveKey
  setAllowKey false
  emit (← read)

/-- A block scalar. A key may begin on the line behind it. -/
def scanBlockScalar (folded : Bool) : Scan Unit := do
  setAllowKey true
  dropKey
  emit (.scalar (.ofText (← blockScalar folded)) false)

/-- A directive. -/
def scanDirective : Scan Unit := do
  closeDocument
  emit (← directive)

/-- The characters that have a meaning of their own at the start of a token. -/
def indicators : Text := "-?:,[]\x7b\x7d#&*!|>'\"%@`".toList

/-- Whether a plain scalar begins with the character `c` before `next`. -/
def startsPlain (inFlow : Bool) (c : Char) (next : Option Char) : Bool :=
  !(atBlank (some c) || indicators.contains c)
    || (!atBlank next && (c = '-' || (!inFlow && (c = '?' || c = ':'))))

/-- The token that begins at the next character, which is `c` and not a blank. -/
def scanToken (c : Char) : Scan Unit := do
  let lexer ← get
  let inFlow := lexer.flowLevel ≠ 0
  let next := lexer.rest[1]?
  let wordEnds := atBlank next
  let marker := lexer.column = 0 && (← atDocumentMarker)
  if c = '%' && lexer.column = 0 then scanDirective
  else if c = '-' && marker then scanMarker .documentStart
  else if c = '.' && marker then scanMarker .documentEnd
  else if c = '[' then scanFlowStart .flowSequenceStart
  else if c = '{' then scanFlowStart .flowMappingStart
  else if c = ']' then scanFlowEnd .flowSequenceEnd
  else if c = '}' then scanFlowEnd .flowMappingEnd
  else if c = ',' then scanFlowEntry
  else if c = '-' && wordEnds then scanBlockEntry
  else if c = '?' && (inFlow || wordEnds) then scanKey
  else if c = ':' && (inFlow || wordEnds) then scanValue
  else if c = '*' then scanSimple (return .alias (← anchorName))
  else if c = '&' then scanSimple (return .anchor (← anchorName))
  else if c = '!' then scanSimple (return .tag (← tagName))
  else if c = '|' && !inFlow then scanBlockScalar false
  else if c = '>' && !inFlow then scanBlockScalar true
  else if c = '\'' || c = '"' then scanSimple (return .scalar (← quotedScalar c) false)
  else if startsPlain inFlow c next then scanPlain
  else fail
where
  /-- A plain scalar, which may be a key. A key may begin behind it if it ended with a line. -/
  scanPlain : Scan Unit := do
    saveKey
    setAllowKey false
    let text ← plainScalar
    emit (.scalar (.ofText text) true)

/-- The next token, with the tokens that its place implies. -/
def scanNext : Scan Unit := do
  toNextToken
  dropStaleKeys
  unwind (← get).column
  match ← peek 0 with
  | none => scanStreamEnd
  | some c => scanToken c

/-- Whether the token with a number is still to come, or may turn out to be a key, before which
another token would have to stand. -/
def isOpen (number : Nat) : Scan Bool := do
  if (← get).tokens.size ≤ number then return true
  dropStaleKeys
  return (← get).keys.any fun (_, key) => key.token = number

/-- Reads on until the token with a number is certain, or to the end of the stream. -/
def readTo (number : Nat) : Scan Unit :=
  loop (σ := Unit) (fun _ => do
    if (← get).tokens.back? = some .streamEnd then return ((), false)
    if ← isOpen number then
      scanNext
      return ((), true)
    else return ((), false)) ()

end FlowTemplate.Yaml.Scan
