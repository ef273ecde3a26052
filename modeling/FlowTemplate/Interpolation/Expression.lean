/-
Interpolated expressions: an expression between two pairs of braces, in an element's content or in
the value of an attribute. In a value, literal text and expressions become one concatenation.
-/
import FlowTemplate.Markup.Name
import FlowTemplate.Text.Segment

namespace FlowTemplate.Interpolation

/-- Two opening braces. -/
def opening : Text := ['{', '{']

/-- Two closing braces. -/
def closing : Text := ['}', '}']

/-- An interpolated expression, without the blanks around it. It ends at the first closing brace,
which another one must follow, and it is not empty between the braces. -/
def readExpression : Recogniser Text := fun text => do
  let inside ← Text.after? opening text
  let (expression, rest) ← Markup.readUntil? '}' inside
  if expression.isEmpty then none
  else
    match rest with
    | '}' :: rest => some (expression.trim, rest)
    | _ => none

/-- One operand of the concatenation: literal text in quotes, an expression in parentheses. -/
def operand : Segment Text → Text
  | .gap text => ['\''] ++ text ++ ['\'']
  | .hit expression _ => ['('] ++ expression ++ [')']

/-- The concatenation that a value with interpolated expressions stands for. -/
def concatenation (value : Text) : Text :=
  Text.joinWith " + ".toList ((Segment.ofText readExpression value).map operand)

/-- Whether an expression is interpolated somewhere in a value. -/
def hasExpression (value : Text) : Bool := !(Text.occurrences readExpression value).isEmpty

/-- The element that shows the value of an expression. -/
def contentSpan (expression : Text) : Text :=
  "<span [innerText]=\"".toList ++ expression ++ "\"></span>".toList

/-- Every interpolated expression of a template replaced by an element that shows its value. -/
def compileContent (template : Text) : Text := Text.replace readExpression contentSpan template

end FlowTemplate.Interpolation
