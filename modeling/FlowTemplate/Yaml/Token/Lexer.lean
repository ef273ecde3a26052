/-
The state of reading tokens: how much of the text is left, where in the text it is, which block
collections are open, and where a key may have begun that only a later colon reveals.
-/
import FlowTemplate.Yaml.Token

namespace FlowTemplate.Yaml

/-- A place at which a key may have begun. -/
structure PossibleKey where
  /-- How many tokens come before the key. -/
  token : Nat
  /-- Whether nothing but a key can stand there. -/
  required : Bool
  index : Nat
  line : Nat
  column : Nat
  deriving DecidableEq, Repr

/-- The state of reading tokens. -/
structure Lexer where
  rest : Text
  index : Nat
  line : Nat
  column : Nat
  /-- The column of the innermost open block collection, or minus one. -/
  indent : Int
  /-- The columns of the block collections around it. -/
  outer : List Int
  /-- How many flow collections are open. -/
  flowLevel : Nat
  /-- Whether a key may begin at the next token. -/
  allowKey : Bool
  /-- The possible keys by flow level. -/
  keys : List (Nat × PossibleKey)
  tokens : Array Token
  deriving Repr

/-- A step of reading that changes the state. -/
abbrev Scan := StateT Lexer (Except YamlFault)

namespace Lexer

/-- The state at the start of a text. -/
def start (text : Text) : Lexer := ⟨text, 0, 0, 0, -1, [], 0, true, [], #[]⟩

/-- The state behind the next character. A byte order mark takes no column. -/
def advanceOne (lexer : Lexer) : Lexer :=
  match lexer.rest with
  | [] => lexer
  | c :: rest =>
    let (line, column) :=
      if isBreak c then (lexer.line + 1, 0)
      else if c = '\ufeff' then (lexer.line, lexer.column)
      else (lexer.line, lexer.column + 1)
    { lexer with rest, index := lexer.index + 1, line, column }

end Lexer

namespace Scan

/-- The text is no YAML. -/
def fail {α : Type} : Scan α := throw .malformed

/-- Fails unless the condition holds. -/
def require (condition : Bool) : Scan Unit := if condition then pure () else fail

/-- The character `distance` places ahead. -/
def peek (distance : Nat) : Scan (Option Char) := return (← get).rest[distance]?

/-- Passes over some characters. -/
def advance : Nat → Scan Unit
  | 0 => pure ()
  | n + 1 => do
    modify Lexer.advanceOne
    advance n

/-- Passes over the characters at the front that satisfy `p`, and returns them. -/
def takeWhile (p : Char → Bool) : Scan Text := do
  let taken := (← get).rest.takeWhile p
  advance taken.length
  return taken

/-- Passes over spaces. -/
def skipSpaces : Scan Unit := do
  let _ ← takeWhile (· = ' ')

/-- Passes over the rest of the line, break excluded. -/
def skipLine : Scan Unit := do
  let _ ← takeWhile fun c => !isBreak c

/-- Passes over a comment if one begins here. -/
def skipComment : Scan Unit := do
  if (← peek 0) = some '#' then skipLine

/-- Passes over a line break if there is one, and returns it as one line feed or as a separator. -/
def lineBreak : Scan Text := do
  match ← peek 0 with
  | some c =>
    if isBreak c then
      advance 1
      return if c = '\n' || c = '\u0085' then ['\n'] else [c]
    else return []
  | none => return []

/-- Repeats a step, which says whether to go on, up to `fuel` times. -/
def loopFrom {σ : Type} (step : σ → Scan (σ × Bool)) : Nat → σ → Scan σ
  | 0, _ => fail
  | fuel + 1, state => do
    let (next, again) ← step state
    if again then loopFrom step fuel next else return next

/-- Repeats a step while it says so. A step after which another follows passes over a character, so
there are no more steps than characters and one. -/
def loop {σ : Type} (step : σ → Scan (σ × Bool)) (state : σ) : Scan σ := do
  loopFrom step ((← get).rest.length + 2) state

/-- Adds a token. -/
def emit (token : Token) : Scan Unit :=
  modify fun lexer => { lexer with tokens := lexer.tokens.push token }

/-- Adds a token in front of the one with the given number. -/
def insert (position : Nat) (token : Token) : Scan Unit :=
  modify fun lexer => { lexer with tokens := lexer.tokens.insertIdxIfInBounds position token }

/-- Says whether a key may begin at the next token. -/
def setAllowKey (allow : Bool) : Scan Unit := modify fun lexer => { lexer with allowKey := allow }

/-- Whether no flow collection is open. -/
def inBlock : Scan Bool := return (← get).flowLevel = 0

/-! ## Indentation -/

/-- Closes the block collections that stand further right than `column`. -/
def unwindBlocks (column : Int) : List Int → Scan Unit
  | [] => pure ()
  | outer :: rest => do
    if column < (← get).indent then
      modify fun lexer => { lexer with indent := outer, outer := rest }
      emit .blockEnd
      unwindBlocks column rest

/-- Closes the block collections that stand further right than `column`, outside flow collections. -/
def unwind (column : Int) : Scan Unit := do
  if ← inBlock then unwindBlocks column (← get).outer

/-- Opens a block collection at `column` if that is further right than the innermost one. -/
def indentTo (column : Nat) : Scan Bool := do
  let lexer ← get
  if lexer.indent < column then
    set { lexer with indent := (column : Int), outer := lexer.indent :: lexer.outer }
    return true
  else return false

/-! ## Possible keys -/

/-- The possible key at the current flow level. -/
def possibleKey? : Scan (Option PossibleKey) := do
  let lexer ← get
  return lexer.keys.lookup lexer.flowLevel

/-- Forgets the possible key at the current flow level. -/
def forgetKey : Scan Unit :=
  modify fun lexer =>
    { lexer with keys := lexer.keys.filter fun (level, _) => level ≠ lexer.flowLevel }

/-- Gives up the possible key at the current flow level, which must not be a required one. -/
def dropKey : Scan Unit := do
  match ← possibleKey? with
  | none => pure ()
  | some key =>
    require !key.required
    forgetKey

/-- Notes that a key may begin at the next token. -/
def saveKey : Scan Unit := do
  let lexer ← get
  if lexer.allowKey then
    dropKey
    let key : PossibleKey :=
      { token := lexer.tokens.size
        required := lexer.flowLevel = 0 && lexer.indent = lexer.column
        index := lexer.index
        line := lexer.line
        column := lexer.column }
    modify fun lexer => { lexer with keys := (lexer.flowLevel, key) :: lexer.keys }

/-- Whether a key begun at the given place can still end here: on the same line, and not much more
than a thousand characters on. -/
def isStale (lexer : Lexer) (key : PossibleKey) : Bool :=
  key.line ≠ lexer.line || lexer.index - key.index > 1024

/-- Gives up the possible keys that cannot end here any more. -/
def dropStaleKeys : Scan Unit := do
  let lexer ← get
  require !(lexer.keys.any fun (_, key) => isStale lexer key && key.required)
  set { lexer with keys := lexer.keys.filter fun (_, key) => !isStale lexer key }

end Scan

end FlowTemplate.Yaml
