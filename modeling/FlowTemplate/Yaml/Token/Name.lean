/-
Names in a YAML stream: directives, anchors, aliases and tags.
-/
import FlowTemplate.Yaml.Token.Lexer
import FlowTemplate.Text.Utf8

namespace FlowTemplate.Yaml.Scan

/-- Passes over what may end a line: spaces, a comment and the break. -/
def endLine : Scan Unit := do
  skipSpaces
  skipComment
  require (atBreak (← peek 0))
  let _ ← lineBreak

/-- A run of name characters, which must not be empty. -/
def name : Scan Text := do
  let name ← takeWhile isNameChar
  require !name.isEmpty
  return name

/-- A decimal number, which must have a digit. -/
def number : Scan Nat := do
  let digits ← takeWhile Char.isDigit
  require !digits.isEmpty
  return digits.foldl (fun n c => n * 10 + (c.toNat - '0'.toNat)) 0

/-- The value of a digit in base sixteen. -/
def hexDigit (c : Char) : Nat :=
  if c.isDigit then c.toNat - '0'.toNat else c.toLower.toNat - 'a'.toNat + 10

/-- Whether a character is a digit in base sixteen. -/
def isHexDigit (c : Char) : Bool :=
  c.isDigit || ('a' ≤ c && c ≤ 'f') || ('A' ≤ c && c ≤ 'F')

/-- A number of exactly `width` digits in base sixteen. -/
def hexNumber (width : Nat) : Scan Nat := do
  let digits := (← get).rest.take width
  require (digits.length = width && digits.all isHexDigit)
  advance width
  return digits.foldl (fun n c => n * 16 + hexDigit c) 0

/-- Characters written as percent signs and their bytes. -/
def uriEscapes : Scan Text := do
  let bytes ← loop (σ := List UInt8) (fun bytes => do
    if (← peek 0) = some '%' then
      advance 1
      let byte ← hexNumber 2
      return (bytes ++ [UInt8.ofNat byte], true)
    else return (bytes, false)) []
  match Utf8.decodeFrom 0 bytes with
  | .ok text => return text
  | .error _ => fail

/-- The name of a tag, which must not be empty. -/
def uri : Scan Text := do
  let text ← loop (σ := Text) (fun text => do
    let plain ← takeWhile fun c => isUriChar c && c ≠ '%'
    if (← peek 0) = some '%' then
      return (text ++ plain ++ (← uriEscapes), true)
    else return (text ++ plain, false)) []
  require !text.isEmpty
  return text

/-- The handle of a tag: an exclamation mark, alone or at both ends of a name. Before a space it
stands alone. -/
def handle : Scan Text := do
  require ((← peek 0) = some '!')
  advance 1
  if (← peek 0) = some ' ' then return ['!']
  let name ← takeWhile isNameChar
  require ((← peek 0) = some '!')
  advance 1
  return ['!'] ++ name ++ ['!']

/-- The value of a version directive. -/
def version : Scan Token := do
  skipSpaces
  let major ← number
  require ((← peek 0) = some '.')
  advance 1
  let _ ← number
  require (atSpace (← peek 0))
  return .versionDirective major

/-- The value of a tag directive. -/
def tagDirective : Scan Token := do
  skipSpaces
  let handle ← handle
  require ((← peek 0) = some ' ')
  skipSpaces
  let leading ← uri
  require (atSpace (← peek 0))
  return .tagDirective handle leading

/-- A directive, up to the end of its line. -/
def directive : Scan Token := do
  advance 1
  let name ← name
  require (atSpace (← peek 0))
  let token ←
    if name = "YAML".toList then version
    else if name = "TAG".toList then tagDirective
    else do
      skipLine
      pure .otherDirective
  endLine
  return token

/-- The name of an anchor or an alias, behind its indicator. -/
def anchorName : Scan Text := do
  advance 1
  let name ← name
  let next ← peek 0
  require (atBlank next || next.any fun c => "?:,]\x7d%@`".toList.contains c)
  return name

/-- A tag. -/
def tagName : Scan TagName := do
  let next ← peek 1
  let name ←
    if next = some '<' then do
      advance 2
      let suffix ← uri
      require ((← peek 0) = some '>')
      advance 1
      pure ⟨none, suffix⟩
    else if atBlank next then do
      advance 1
      pure ⟨none, ['!']⟩
    else do
      let word := ((← get).rest.drop 1).takeWhile fun c => !atSpace (some c)
      let handle ←
        if word.contains '!' then handle
        else do
          advance 1
          pure ['!']
      pure ⟨some handle, ← uri⟩
  require (atSpace (← peek 0))
  return name

end FlowTemplate.Yaml.Scan
