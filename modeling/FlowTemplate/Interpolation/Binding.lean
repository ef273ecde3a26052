/-
Attribute bindings: the attributes of a tag whose values are interpolated, gathered into the value
of one attribute. They are written as compact JSON whose quotes are replaced by character
references, so that the value can stand between double quotes.
-/
import FlowTemplate.Interpolation.Expression
import FlowTemplate.Text.Quoted

namespace FlowTemplate.Interpolation

/-- The name of an attribute and the expression that gives its value. -/
structure Binding where
  name : Text
  expression : Text
  deriving DecidableEq, Repr

namespace Binding

/-- One character in a JSON string. Only the quote, the backslash and controls are escaped. -/
def jsonChar (c : Char) : Text :=
  if c = '"' then ['\\', '"']
  else if c = '\\' then ['\\', '\\']
  else if c = '\n' then ['\\', 'n']
  else if c = '\r' then ['\\', 'r']
  else if c = '\t' then ['\\', 't']
  else if c = '\x08' then ['\\', 'b']
  else if c = '\x0c' then ['\\', 'f']
  else if c.toNat < 0x20 then '\\' :: 'u' :: Text.hex 4 c.toNat
  else [c]

/-- A text as a JSON string. -/
def jsonString (text : Text) : Text := ['"'] ++ text.flatMap jsonChar ++ ['"']

/-- A binding as a JSON object. -/
def json (binding : Binding) : Text :=
  ['{'] ++ jsonString "attr".toList ++ [':'] ++ jsonString binding.name ++ [',']
    ++ jsonString "expr".toList ++ [':'] ++ jsonString binding.expression ++ ['}']

/-- Both kinds of quote as the reference of the single one. -/
def referQuote (c : Char) : Text := if c = '"' || c = '\'' then "&apos;".toList else [c]

/-- The value that holds a list of bindings. -/
def encode (bindings : List Binding) : Text :=
  (['['] ++ Text.joinWith [','] (bindings.map json) ++ [']']).flatMap referQuote

end Binding

end FlowTemplate.Interpolation
